import TierTagger.Proofs.Url.Behind

/-!
# Text and segments behind a path

A path with text behind it is resolved as a whole, and segments are put behind a path that is resolved
already.

- `fields_concat`: a text behind a path lengthens its last field and adds others.
- `resolve_append`: dot segments are resolved from the front, so what comes last is resolved last.
- `stem`: the segments of a path that others are put behind.
- `pathAfterHost_append`: when the two come to the same.
-/

namespace TierTagger.Url

/-! ## Fields -/

section
variable {sep : Char → Bool} {s t : List Char}

theorem fields_plain (plain : ∀ c ∈ t, sep c = false) : Text.fields sep t = [t] := by
  induction t with
  | nil => rfl
  | cons c t ih =>
    obtain ⟨first, rest⟩ := List.forall_mem_cons.mp plain
    simp [Text.fields, first, ih rest]

/-- The fields in front of a separator and those behind it. -/
theorem fields_append {c : Char} (at_sep : sep c = true) :
    Text.fields sep (s ++ c :: t) = Text.fields sep s ++ Text.fields sep t := by
  induction s with
  | nil => simp [Text.fields, at_sep]
  | cons d s ih =>
    rw [List.cons_append, Text.fields, ih, Text.fields]
    split_ifs
    · rfl
    · cases first : Text.fields sep s with
      | nil => exact absurd first (Text.fields_ne_nil sep s)
      | cons p ps => rfl

theorem exists_last_sep (sep : Char → Bool) (s : List Char) : (∀ c ∈ s, sep c = false) ∨
    ∃ before c last, s = before ++ c :: last ∧ sep c = true ∧ ∀ d ∈ last, sep d = false := by
  induction s with
  | nil => exact .inl nofun
  | cons c s ih =>
    rcases ih with plain | ⟨before, d, last, rfl, at_sep, plain⟩
    · cases first : sep c with
      | true => exact .inr ⟨[], c, s, rfl, first, plain⟩
      | false => exact .inl (List.forall_mem_cons.mpr ⟨first, plain⟩)
    · exact .inr ⟨c :: before, d, last, rfl, at_sep, plain⟩

/-- More text lengthens the last field, which is empty if the text ends with a separator. -/
theorem fields_concat (sep : Char → Bool) (s : List Char) : ∃ front last,
    (∀ more, (∀ c ∈ more, sep c = false) → Text.fields sep (s ++ more) = front ++ [last ++ more]) ∧
      (last = [] ↔ ∀ c ∈ s.getLast?, sep c = true) := by
  rcases exists_last_sep sep s with plain | ⟨before, c, last, rfl, at_sep, plain⟩
  · refine ⟨[], s, fun more more_plain => fields_plain (List.forall_mem_append.mpr ⟨plain, more_plain⟩), ?_⟩
    constructor
    · rintro rfl
      exact nofun
    · intro ended
      cases at_end : s.getLast? with
      | none => exact List.getLast?_eq_none_iff.mp at_end
      | some c => exact absurd (ended c at_end) (by simp [plain c (List.mem_of_getLast? at_end)])
  · refine ⟨Text.fields sep before, last, fun more more_plain => ?_, ?_⟩
    · rw [List.append_assoc, List.cons_append, fields_append at_sep,
        fields_plain (List.forall_mem_append.mpr ⟨plain, more_plain⟩)]
    · rw [List.getLast?_append, List.getLast?_cons, Option.some_or]
      constructor
      · rintro rfl
        simpa using at_sep
      · intro ended
        cases at_end : last.getLast? with
        | none => exact List.getLast?_eq_none_iff.mp at_end
        | some d =>
          have sep_d : sep d = true := ended d (by simp [at_end])
          exact absurd sep_d (by simp [plain d (List.mem_of_getLast? at_end)])

end

/-! ## Dot segments -/

/-- What a segment that others follow does to those before it, the last one first. -/
def step (done : List String) (s : String) : List String :=
  if isDoubleDot s then done.tail else if isSingleDot s then done else s :: done

variable {done : List String}

/-- Dot segments are resolved from the front. -/
theorem resolve_append (front : List String) {last : List String} (more : last ≠ []) :
    resolve (fun _ => false) done (front ++ last) = resolve (fun _ => false) (front.foldl step done) last := by
  induction front generalizing done with
  | nil => rfl
  | cons s front ih =>
    obtain ⟨t, rest, next⟩ := List.exists_cons_of_ne_nil (List.append_ne_nil_of_right_ne_nil front more)
    have above : (if (done.head?.map fun _ => false).getD false then done else done.tail) = done.tail := by
      cases done <;> rfl
    rw [List.cons_append, List.foldl_cons, ← ih, next, resolve, above]
    · unfold step
      split_ifs <;> rfl
    · exact List.cons_ne_nil t rest

/-- A segment at the end. -/
theorem resolve_last (done : List String) (s : String) : resolve (fun _ => false) done [s] =
    if isDoubleDot s then done.tail.reverse ++ [""]
    else if isSingleDot s then done.reverse ++ [""]
    else done.reverse ++ [s] := by
  have above : (if (done.head?.map fun _ => false).getD false then done else done.tail) = done.tail := by
    cases done <;> rfl
  rw [resolve, above]
  split_ifs <;> simp

/-- Segments at the end that are no dot segments. -/
theorem resolve_api (done : List String) :
    resolve (fun _ => false) done ["api", "session"] = done.reverse ++ ["api", "session"] := by
  have dots : ∀ s ∈ ["api", "session"], isDoubleDot s = false ∧ isSingleDot s = false := by decide
  obtain ⟨⟨no_dots, no_dot⟩, ⟨no_dots', no_dot'⟩, -⟩ := by simpa only [List.forall_mem_cons] using dots
  rw [show ["api", "session"] = ["api"] ++ ["session"] from rfl, resolve_append _ (List.cons_ne_nil _ _), resolve_last]
  simp [step, no_dots, no_dot, no_dots', no_dot']

/-! ## Putting segments behind -/

/-- The segments of a path that others are put behind. -/
def stem (segments : List String) : List String :=
  if dropEmptyEnd segments = [""] then [] else dropEmptyEnd segments

variable {segments : List String} {s : String}

theorem stem_concat (named : s ≠ "") : stem (segments ++ [s]) = segments ++ [s] := by
  have kept : dropEmptyEnd (segments ++ [s]) = segments ++ [s] := by
    simp [dropEmptyEnd, named]
  have more : segments ++ [s] ≠ [""] := by
    intro only
    have last := congrArg List.getLast? only
    rw [List.getLast?_concat] at last
    exact named (Option.some.inj last)
  rw [stem, kept, if_neg more]

theorem stem_concat_empty (segments : List String) :
    stem (segments ++ [""]) = if segments = [""] then [] else segments := by
  cases segments with
  | nil => rfl
  | cons s segments =>
    have dropped : dropEmptyEnd (s :: segments ++ [""]) = s :: segments := by
      rw [dropEmptyEnd, List.getLast?_concat, List.dropLast_concat, if_pos ⟨by simp, rfl⟩]
    rw [stem, dropped]

/-- Segments that are put behind a path make it another one. -/
theorem ne_stem_concat (segments : List String) {first : String} (named : s ≠ "") :
    segments ≠ stem segments ++ [first, s] := by
  intro same
  have whole : stem segments = segments := by
    rw [same, show stem segments ++ [first, s] = stem segments ++ [first] ++ [s] by simp, stem_concat named]
  rw [whole] at same
  simp at same

/-! ## Written segments -/

theorem encode_append (set : EncodeSet) (s t : List Char) :
    Percent.encode set (s ++ t) = Percent.encode set s ++ Percent.encode set t := by
  simp [Percent.encode, String.ofList_append]

theorem encode_eq_empty {set : EncodeSet} {s : List Char} : Percent.encode set s = "" ↔ s = [] := by
  constructor
  · intro none
    cases s with
    | nil => rfl
    | cons c s =>
      have chars := congrArg String.toList none
      rw [Percent.encode, String.toList_ofList, List.flatMap_cons] at chars
      exact absurd (List.append_eq_nil_iff.mp chars).1 (percentChar_ne_nil set c)
  · rintro rfl
    rfl

/-- A segment that ends with a blank is no dot segment, however it is spelled. -/
theorem no_dots_of_blank {c : Char} (blank : c ≤ ' ') (s : List Char) :
    isDoubleDot (Percent.encode EncodeSet.path (s ++ [c])) = false ∧
      isSingleDot (Percent.encode EncodeSet.path (s ++ [c])) = false := by
  have all : ∀ n < 0x21, ∀ t ∈ points ++ points.flatMap fun a => points.map (a ++ ·),
      ¬Percent.char EncodeSet.path (.ofNat n) <:+ t.toList := by decide +kernel
  have other (t : String) (dots : t ∈ points ++ points.flatMap fun a => points.map (a ++ ·)) :
      Percent.encode EncodeSet.path (s ++ [c]) ≠ t := by
    rintro rfl
    refine all c.toNat (Nat.lt_succ_of_le (toNat_le_of_blank blank)) _ dots ?_
    rw [Char.ofNat_toNat, Percent.encode, String.toList_ofList, List.flatMap_append, List.flatMap_singleton]
    exact List.suffix_append _ _
  constructor
  · rw [isDoubleDot, List.contains_eq_mem, decide_eq_false_iff_not]
    exact fun mem => other _ (List.mem_append_right _ mem) rfl
  · rw [isSingleDot, List.contains_eq_mem, decide_eq_false_iff_not]
    exact fun mem => other _ (List.mem_append_left _ mem) rfl

/-! ## The end of a path -/

section
variable (done : List String)

theorem length_stem_le (segments : List String) : (stem (segments ++ [""])).length ≤ segments.length := by
  rw [stem_concat_empty]
  split_ifs
  · exact Nat.zero_le _
  · exact Nat.le_refl _

theorem eq_stem_iff (segments : List String) :
    segments = stem (segments ++ [""]) ↔ segments ++ [""] ≠ ["", ""] := by
  have single : segments ++ [""] = ["", ""] ↔ segments = [""] := by
    rw [show ["", ""] = [""] ++ [""] from rfl, List.append_cancel_right_eq]
  rw [stem_concat_empty, ne_eq, single]
  split_ifs with only <;> simp [only]

/-- With segments behind it a path is resolved as it was, unless it ends with a slash. -/
theorem step_eq_stem_iff (s : String) : (step done s).reverse = stem (resolve (fun _ => false) done [s]) ↔
    s ≠ "" ∧ resolve (fun _ => false) done [s] ≠ ["", ""] := by
  have named (dots : isDoubleDot s ∨ isSingleDot s) : s ≠ "" := by
    rintro rfl
    exact absurd dots (by decide)
  rw [resolve_last, step]
  by_cases double : isDoubleDot s
  · simp only [if_pos double, eq_stem_iff, named (.inl double), ne_eq, not_false_eq_true, true_and]
  by_cases single : isSingleDot s
  · simp only [if_neg double, if_pos single, eq_stem_iff, named (.inr single), ne_eq, not_false_eq_true, true_and]
  simp only [if_neg double, if_neg single, List.reverse_cons]
  by_cases empty : s = ""
  · subst empty
    have short := length_stem_le done.reverse
    simp only [ne_eq, not_true_eq_false, false_and, iff_false]
    intro same
    have length := congrArg List.length same
    simp only [List.length_append, List.length_reverse, List.length_singleton] at length short
    omega
  · rw [stem_concat empty]
    have other : done.reverse ++ [s] ≠ ["", ""] := fun same => empty (by
      have last := congrArg List.getLast? same
      rw [List.getLast?_concat] at last
      exact Option.some.inj last)
    simp [empty, other]

/-- Blanks at the end of a path make it another one. -/
theorem step_ne_stem {s t : String} (no_dots : isDoubleDot t = false ∧ isSingleDot t = false) (other : t ≠ s) :
    (step done t).reverse ≠ stem (resolve (fun _ => false) done [s]) := by
  have stepped : (step done t).reverse = done.reverse ++ [t] := by simp [step, no_dots]
  rw [stepped, resolve_last]
  have longer (segments : List String) (short : segments.length ≤ done.length) :
      done.reverse ++ [t] ≠ stem (segments ++ [""]) := by
    intro same
    have length := congrArg List.length same
    have bound := length_stem_le segments
    simp only [List.length_append, List.length_reverse, List.length_singleton] at length
    omega
  split_ifs
  · exact longer _ (by simp)
  · exact longer _ (by simp)
  · by_cases empty : s = ""
    · subst empty
      exact longer _ (by simp)
    · rw [stem_concat empty]
      intro same
      exact other (List.singleton_inj.mp (List.append_cancel_left same))

end

/-! ## Paths -/

/-- The path of a text without query and fragment. -/
theorem pathAfterHost_slash {c : Char} {s : List Char} (slash : isSlash true c = true)
    (all : ∀ d ∈ s, isPathEnd d = false) : pathAfterHost true (c :: s) =
      .rooted (resolve (fun _ => false) [] (segmentsOf true s)) := by
  have whole : (c :: s).takeWhile (!isPathEnd ·) = c :: s := by
    simpa [List.takeWhile_eq_self_iff, isPathEnd_of_isSlash slash] using all
  unfold pathAfterHost
  rw [whole]
  simp only [slash, if_true]

/-- The last segment is empty if the text ends with a slash. -/
theorem last_ne_nil_iff {c : Char} {s last : List Char} (slash : isSlash true c = true)
    (ended : last = [] ↔ ∀ d ∈ s.getLast?, isSlash true d = true) :
    last ≠ [] ↔ ∀ d ∈ (c :: s).getLast?, isSlash true d = false := by
  rw [ne_eq, ended, List.getLast?_cons]
  cases s.getLast? <;> simp [slash]

/-- **A path with text behind it is the path with segments behind it** if it ends with a segment and not
with a blank. -/
theorem pathAfterHost_append {path blanks : List Char} (outside : Outside path)
    (all : ∀ c ∈ path, isPathEnd c = false) (blank : ∀ c ∈ blanks, c ≤ ' ') (none : path = [] → blanks = []) :
    ∃ segments front, pathAfterHost true path = .rooted segments ∧
      pathAfterHost true (path ++ (blanks ++ "/api/session".toList)) = .rooted (front ++ ["api", "session"]) ∧
      (front = stem segments ↔
        blanks = [] ∧ (∀ c ∈ path.getLast?, isSlash true c = false) ∧ segments ≠ ["", ""]) := by
  cases path with
  | nil =>
    rw [none rfl]
    exact ⟨[""], [], rfl, by decide, fun _ => ⟨rfl, by simp, by decide⟩, fun _ => rfl⟩
  | cons c path =>
    obtain ⟨first, rest⟩ := List.forall_mem_cons.mp all
    have slash : isSlash true c = true := by simpa [isAuthorityEnd, first] using outside c rfl
    obtain ⟨front, last, fields, ended⟩ := fields_concat (isSlash true) path
    let written := Percent.encode EncodeSet.path
    have alone : segmentsOf true path = front.map written ++ [written last] := by
      have at_end := fields [] (by simp)
      rw [List.append_nil, List.append_nil] at at_end
      rw [segmentsOf, at_end, List.map_append]
      rfl
    have joined : segmentsOf true (path ++ (blanks ++ "/api/session".toList)) =
        front.map written ++ [written (last ++ blanks)] ++ ["api", "session"] := by
      have no_slash (d : Char) (mem : d ∈ blanks) : isSlash true d = false :=
        (Bool.or_eq_false_iff.mp (plain_of_blank (blank d mem)).1).1
      rw [segmentsOf, show "/api/session".toList = '/' :: "api/session".toList from rfl, ← List.append_assoc,
        fields_append (by decide), fields blanks no_slash, List.map_append, List.map_append]
      rfl
    have all_joined : ∀ d ∈ path ++ (blanks ++ "/api/session".toList), isPathEnd d = false := by
      refine List.forall_mem_append.mpr ⟨rest, List.forall_mem_append.mpr
        ⟨fun d mem => ?_, forall_of_all (by decide)⟩⟩
      exact (plain_of_blank (blank d mem)).2
    let done := (front.map written).foldl step []
    refine ⟨resolve (fun _ => false) done [written last], (step done (written (last ++ blanks))).reverse, ?_, ?_, ?_⟩
    · rw [pathAfterHost_slash slash rest, alone, resolve_append _ (List.cons_ne_nil _ _)]
    · rw [List.cons_append, pathAfterHost_slash slash all_joined, joined, resolve_append _ (List.cons_ne_nil _ _),
        List.foldl_append, resolve_api]
      rfl
    rw [← last_ne_nil_iff slash ended]
    rcases List.eq_nil_or_concat' blanks with rfl | ⟨others, d, rfl⟩
    · rw [List.append_nil, step_eq_stem_iff, ne_eq, encode_eq_empty]
      simp
    · have longer : written (last ++ (others ++ [d])) ≠ written last := by
        intro same
        have nothing : written (others ++ [d]) = "" := by
          rw [show written (last ++ (others ++ [d])) = written last ++ written (others ++ [d]) from
            encode_append _ _ _] at same
          simpa using same
        simpa using encode_eq_empty.mp nothing
      have no_dots := no_dots_of_blank (blank d (by simp)) (last ++ others)
      rw [List.append_assoc] at no_dots
      simpa using step_ne_stem done no_dots longer

end TierTagger.Url
