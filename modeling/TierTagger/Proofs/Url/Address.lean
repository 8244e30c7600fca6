import Mathlib.Data.List.Basic
import TierTagger.Proofs.Text.Numeral
import TierTagger.Proofs.Url.Percent
import TierTagger.Url.Segments

/-!
# The address of a server

A URL that is a host and a port behind `http`, and what is put behind it.

- `IsHost`: a text that can be the host of a URL.
- `parse_baseText`: the URL of a host and a port, with nothing or with a path behind it.
- `foldl_appendSegment`: segments are appended one by one, encoded, if none of them is a dot segment
  (`IsSegment`).
- `mapM_decoded?`: the segments of a path are read back, so a path belongs to one list of segments only.
-/

namespace TierTagger.Url

/-! ## Texts that are read as they are -/

/-- What is checked of each character holds of all of them. -/
theorem forall_of_all {p : Char → Prop} [DecidablePred p] {s : List Char}
    (all : s.all (fun c => decide (p c)) = true) : ∀ c ∈ s, p c := by
  simpa using all

theorem dropWhile_visible {s : List Char} (first : ∀ c ∈ s.head?, ' ' < c) : s.dropWhile (· ≤ ' ') = s := by
  cases s with
  | nil => rfl
  | cons c s =>
    have above : ¬c ≤ ' ' := Char.not_le.mpr (first c rfl)
    simp [above]

theorem clean_eq {s : List Char} (first : ∀ c ∈ s.head?, ' ' < c) (last : ∀ c ∈ s.getLast?, ' ' < c)
    (unbroken : ∀ c ∈ s, ¬isBreak c) : clean s = s := by
  have first' : ∀ c ∈ s.reverse.head?, ' ' < c := by simpa using last
  unfold clean
  rw [dropWhile_visible first, dropWhile_visible first', List.reverse_reverse]
  simpa [List.filter_eq_self] using unbroken

/-! ## The authority -/

/-- A host as it is written: nothing in it ends an authority, and only between brackets there are
colons. -/
structure IsHost (s : List Char) : Prop where
  ne_nil : s ≠ []
  plain : ∀ c ∈ s, ¬isAuthorityEnd true c ∧ c ≠ '@' ∧ ¬isBreak c
  colon : (∀ c ∈ s, c ≠ ':' ∧ c ≠ '[') ∨ ∃ inner, s = '[' :: inner ++ [']'] ∧ ']' ∉ inner

variable {host rest : List Char}

/-- The host is read up to the colon behind it. -/
theorem hostText_colon (isHost : IsHost host) :
    hostText true false (host ++ ':' :: rest) = (host, ':' :: rest) := by
  have stop : hostText true false (':' :: rest) = ([], ':' :: rest) := by simp [hostText]
  rcases isHost.colon with name | ⟨inner, rfl, closed⟩
  · have plain (c : Char) (mem : c ∈ host) : isAuthorityEnd true c = false := by
      simpa using (isHost.plain c mem).1
    clear isHost
    induction host with
    | nil => exact stop
    | cons c host ih =>
      obtain ⟨not_colon, not_bracket⟩ := name c List.mem_cons_self
      have step := ih (fun d mem => name d (List.mem_cons_of_mem _ mem))
        fun d mem => plain d (List.mem_cons_of_mem _ mem)
      rw [List.cons_append, hostText]
      simp [plain c List.mem_cons_self, not_colon, not_bracket, step]
  · have plain (c : Char) (mem : c ∈ inner) : isAuthorityEnd true c = false := by
      simpa using (isHost.plain c (by simp [mem])).1
    clear isHost
    have inside : hostText true true (inner ++ ']' :: ':' :: rest) = (inner ++ [']'], ':' :: rest) := by
      induction inner with
      | nil =>
        have bracket : isAuthorityEnd true ']' = false := by decide
        rw [List.nil_append, hostText]
        simp [bracket, stop]
      | cons c inner ih =>
        have other : c ≠ ']' := fun same => closed (by simp [same])
        have step := ih (fun mem => closed (List.mem_cons_of_mem _ mem))
          fun d mem => plain d (List.mem_cons_of_mem _ mem)
        rw [List.cons_append, hostText]
        simp [plain c List.mem_cons_self, other, step]
    have bracket : isAuthorityEnd true '[' = false := by decide
    rw [show '[' :: inner ++ [']'] ++ ':' :: rest = '[' :: (inner ++ ']' :: ':' :: rest) by simp, hostText]
    simp [bracket, inside]

/-- The port behind a host. -/
theorem port_digits {n : Nat} (small : n ≤ 65535) (ends : ∀ c ∈ rest.head?, c = '/') :
    port "http" (':' :: (Nat.toDigits 10 n ++ rest)) = .ok (if n = 80 then none else some n, rest) := by
  have all : ∀ c ∈ Nat.toDigits 10 n, c.isDigit := fun c => Nat.isDigit_of_mem_toDigits (by decide) (by decide)
  have stop : rest.takeWhile Char.isDigit = [] ∧ rest.dropWhile Char.isDigit = rest ∧
      (rest.head?.map (!isAuthorityEnd true ·)).getD false = false := by
    cases rest with
    | nil => exact ⟨rfl, rfl, rfl⟩
    | cons c rest =>
      obtain rfl := ends c rfl
      exact ⟨rfl, rfl, rfl⟩
  have digits : (Nat.toDigits 10 n ++ rest).takeWhile Char.isDigit = Nat.toDigits 10 n := by
    rw [List.takeWhile_append_of_pos all, stop.1, List.append_nil]
  have left : (Nat.toDigits 10 n ++ rest).dropWhile Char.isDigit = rest := by
    rw [List.dropWhile_append_of_pos all, stop.2.1]
  have default : defaultPort? "http" = some 80 := by decide
  simp only [port, digits, left, Text.Numeral.value_toDigits, default, Nat.toDigits_ne_nil, false_or]
  rw [if_neg (by simp [stop.2.2]; omega)]
  by_cases standard : n = 80
  · simp [standard]
  · simp [standard, Ne.symm standard]

/-- The authority of a host and a port. -/
def authorityOf (h : Host) (port : Nat) : Authority := ⟨"", "", h, if port = 80 then none else some port⟩

/-- The path behind an authority, which is empty or begins with a slash. -/
structure IsTail (s : List Char) : Prop where
  head : ∀ c ∈ s.head?, c = '/'
  last : ∀ c ∈ s.getLast?, ' ' < c
  plain : ∀ c ∈ s, c ≠ '@' ∧ ¬isBreak c

/-- A host, a port and a path are read. -/
theorem afterSlashes_host {h : Host} {n : Nat} {tail : List Char} (isHost : IsHost host)
    (name : Host.ofName host = .ok h) (named : h ≠ .domain "") (small : n ≤ 65535)
    (isTail : IsTail tail) : afterSlashes "http" (host ++ ':' :: (Nat.toDigits 10 n ++ tail)) =
      .ok (withRest "http" (some (authorityOf h n)) (pathAfterHost true tail) tail) := by
  have special : isSpecial "http" = true := by decide
  have whole : cutUserinfo true (host ++ ':' :: (Nat.toDigits 10 n ++ tail)) = none := by
    have absent : '@' ∉ host ++ ':' :: (Nat.toDigits 10 n ++ tail) := by
      intro mem
      rcases List.mem_append.mp mem with mem | mem
      · exact (isHost.plain _ mem).2.1 rfl
      · rcases List.mem_cons.mp mem with same | mem
        · exact absurd same (by decide)
        · rcases List.mem_append.mp mem with mem | mem
          · exact absurd (Nat.isDigit_of_mem_toDigits (by decide) (by decide) mem) (by decide)
          · exact (isTail.plain _ mem).1 rfl
    have outside : ((host ++ ':' :: (Nat.toDigits 10 n ++ tail)).takeWhile
        (!isAuthorityEnd true ·)).contains '@' = false := by
      simpa using fun mem => absent ((List.takeWhile_prefix _).subset mem)
    simp only [cutUserinfo, outside]
    rfl
  have nobody : userinfo [] = ("", "") := by decide
  simp only [afterSlashes, special, whole]
  simp [nobody, Url.host, special, hostText_colon isHost, isHost.ne_nil, name, port_digits small isTail.head,
    named, authorityOf, bind, Except.bind, pure, Except.pure]

/-- The text of a URL with a host and a port. -/
def baseText (host : String) (port : Nat) : String := "http://" ++ host ++ ":" ++ toString port

theorem baseText_toList (host : String) (n : Nat) (tail : String) :
    (baseText host n ++ tail).toList = 'h' :: 't' :: 't' :: 'p' :: ':' :: '/' :: '/' ::
      (host.toList ++ ':' :: (Nat.toDigits 10 n ++ tail.toList)) := by
  simp [baseText]

/-- **The URL of a host and a port**, with a path behind them. -/
theorem parse_baseText {host tail : String} {h : Host} {n : Nat} (isHost : IsHost host.toList)
    (name : Host.ofName host.toList = .ok h) (named : h ≠ .domain "") (small : n ≤ 65535)
    (isTail : IsTail tail.toList) : parse (baseText host n ++ tail) =
      .ok (withRest "http" (some (authorityOf h n)) (pathAfterHost true tail.toList) tail.toList) := by
  have digits (c : Char) (mem : c ∈ Nat.toDigits 10 n) : c.isDigit :=
    Nat.isDigit_of_mem_toDigits (by decide) (by decide) mem
  have above (c : Char) (digit : c.isDigit) : ' ' < c ∧ ¬isBreak c := by
    have low : '0' ≤ c := by
      simp only [Char.isDigit, Bool.and_eq_true, decide_eq_true_eq] at digit
      exact digit.1
    refine ⟨Char.not_le.mp fun above => absurd (Char.le_trans low above) (by decide), fun broken => ?_⟩
    simp only [isBreak, Bool.or_eq_true, decide_eq_true_eq] at broken
    rcases broken with (rfl | rfl) | rfl <;> exact absurd low (by decide)
  have clear : clean (baseText host n ++ tail).toList = (baseText host n ++ tail).toList := by
    rw [baseText_toList]
    refine clean_eq (by simp) ?_ ?_
    · intro c last
      rw [show 'h' :: 't' :: 't' :: 'p' :: ':' :: '/' :: '/' ::
        (host.toList ++ ':' :: (Nat.toDigits 10 n ++ tail.toList)) =
          ('h' :: 't' :: 't' :: 'p' :: ':' :: '/' :: '/' :: host.toList ++ [':']) ++
            (Nat.toDigits 10 n ++ tail.toList) by simp, List.getLast?_append] at last
      cases at_end : tail.toList.getLast? with
      | some d =>
        have same : d = c := by simpa [List.getLast?_append, at_end] using last
        exact same ▸ isTail.last d at_end
      | none =>
        have nothing : tail.toList = [] := List.getLast?_eq_none_iff.mp at_end
        rw [nothing, List.append_nil, List.getLast?_eq_some_getLast Nat.toDigits_ne_nil] at last
        have same : (Nat.toDigits 10 n).getLast Nat.toDigits_ne_nil = c := by simpa using last
        exact (above c (digits c (same ▸ List.getLast_mem _))).1
    · intro c mem
      simp only [List.mem_cons, List.mem_append] at mem
      rcases mem with rfl | rfl | rfl | rfl | rfl | rfl | rfl | mem | rfl | mem | mem
      iterate 7 decide
      · exact (isHost.plain c mem).2.2
      · decide
      · exact (above c (digits c mem)).2
      · exact (isTail.plain c mem).2
  have start (r : List Char) : scheme? ('h' :: 't' :: 't' :: 'p' :: ':' :: r) = some ("http", r) := by
    rfl
  have slashes : ('/' :: '/' :: (host.toList ++ ':' :: (Nat.toDigits 10 n ++ tail.toList))).dropWhile
      (isSlash true) = host.toList ++ ':' :: (Nat.toDigits 10 n ++ tail.toList) := by
    cases chars : host.toList with
    | nil => exact absurd chars isHost.ne_nil
    | cons c cs =>
      have first : isAuthorityEnd true c = false := by
        simpa using (isHost.plain c (by simp [chars])).1
      have other : isSlash true c = false := by
        simp only [isAuthorityEnd, Bool.or_eq_false_iff] at first
        exact first.1
      have slash : isSlash true '/' = true := by decide
      simp [slash, other]
  have not_file : "http" ≠ "file" := by decide
  have special : isSpecial "http" = true := by decide
  rw [parse, clear, baseText_toList, start]
  simp only [not_file, special, if_true, if_false, slashes]
  exact afterSlashes_host isHost name named small isTail

/-! ## Segments -/

/-- A text that can be a segment of a path: it is not a dot segment, and nothing in it is left out. -/
structure IsSegment (s : String) : Prop where
  ne_empty : s ≠ ""
  ne_dot : s ≠ "."
  ne_dots : s ≠ ".."
  unbroken : ∀ c ∈ s.toList, ¬isBreak c

instance (s : String) : Decidable (IsSegment s) :=
  decidable_of_iff (s ≠ "" ∧ s ≠ "." ∧ s ≠ ".." ∧ s.toList.any isBreak = false)
    ⟨fun ⟨ne_empty, ne_dot, ne_dots, unbroken⟩ => ⟨ne_empty, ne_dot, ne_dots, by simpa using unbroken⟩,
      fun h => ⟨h.ne_empty, h.ne_dot, h.ne_dots, by simpa using h.unbroken⟩⟩

/-- The written form of a segment. -/
def segmentText (s : String) : String := Percent.encode (EncodeSet.segment true) s.toList

/-- Every character is written. -/
theorem percentChar_ne_nil (set : EncodeSet) (c : Char) : Percent.char set c ≠ [] := by
  intro none
  unfold Percent.char at none
  split at none
  · cases bytes : String.utf8EncodeChar c with
    | nil => exact String.utf8EncodeChar_ne_nil bytes
    | cons b bs =>
      rw [bytes] at none
      cases none
  · cases none

theorem segmentText_ne_empty {s : String} (isSegment : IsSegment s) : segmentText s ≠ "" := by
  cases chars : s.toList with
  | nil => exact absurd (String.toList_eq_nil_iff.mp chars) isSegment.ne_empty
  | cons c cs =>
    intro empty
    have nothing := congrArg String.toList empty
    rw [segmentText, chars, Percent.encode, String.toList_ofList, List.flatMap_cons] at nothing
    exact percentChar_ne_nil _ c (List.append_eq_nil_iff.mp nothing).1

theorem appendSegment_eq {s : String} (isSegment : IsSegment s) (before : List String) :
    appendSegment true before s = (if before = [""] then [] else before) ++ [segmentText s] := by
  have all : s.toList.filter (!isBreak ·) = s.toList := by
    simpa [List.filter_eq_self] using isSegment.unbroken
  have not_dots : s.toList ≠ "..".toList := fun same => isSegment.ne_dots (String.toList_inj.mp same)
  have not_dot : s.toList ≠ ".".toList := fun same => isSegment.ne_dot (String.toList_inj.mp same)
  unfold appendSegment
  rw [if_neg (by simp [isSegment.ne_dot, isSegment.ne_dots])]
  simp only [all]
  rw [if_neg not_dots, if_neg not_dot]
  rfl

theorem foldl_appendSegment {segments : List String} (ids : ∀ s ∈ segments, IsSegment s)
    {before : List String} (more : before ≠ [""]) :
    segments.foldl (appendSegment true) before = before ++ segments.map segmentText := by
  induction segments generalizing before with
  | nil => simp
  | cons s segments ih =>
    obtain ⟨first, ids⟩ := List.forall_mem_cons.mp ids
    have next : before ++ [segmentText s] ≠ [""] := by
      intro same
      cases before with
      | nil => exact segmentText_ne_empty first (List.cons.inj same).1
      | cons b before =>
        have short := congrArg List.length same
        simp at short
    rw [List.foldl_cons, appendSegment_eq first, if_neg more, ih ids next, List.map_cons]
    simp

/-- The segments of a path are read back. -/
theorem decoded?_segmentText (s : String) : Http.Request.decoded? (segmentText s) = some s :=
  decoded?_encode (EncodeSet.faithful_segment true) s

theorem mapM_decoded? (segments : List String) :
    (segments.map segmentText).mapM Http.Request.decoded? = some segments := by
  induction segments with
  | nil => rfl
  | cons s segments ih => simp [List.mapM_cons, decoded?_segmentText, ih]

end TierTagger.Url
