import TierTagger.Proofs.Url.Authority
import TierTagger.Proofs.Url.Segments

/-!
# Text behind a URL

Putting text behind the text of a URL and putting segments behind its path are two things. This is how
they differ.

- `clean_append`: the blanks at the end of a text are read if there is more text behind them.
- `exists_reading`: what `http` URL a text is, and which one it is with more text behind it. They have the
  same scheme and authority.
- `pathAfterHost_append`: when the path with text behind it is the path with segments behind it.
-/

namespace TierTagger.Url

/-! ## Blanks -/

/-- A text that has nothing that a URL ignores, and no colon. -/
structure IsVisible (t : List Char) : Prop where
  ne_nil : t ≠ []
  first : ∀ c ∈ t.head?, ' ' < c
  last : ∀ c ∈ t.getLast?, ' ' < c
  unbroken : ∀ c ∈ t, ¬isBreak c
  no_colon : ':' ∉ t

instance (t : List Char) : Decidable (IsVisible t) :=
  decidable_of_iff (t ≠ [] ∧ t.head?.all (' ' < ·) = true ∧ t.getLast?.all (' ' < ·) = true ∧
      t.any isBreak = false ∧ ':' ∉ t)
    ⟨fun ⟨ne_nil, first, last, unbroken, no_colon⟩ =>
        ⟨ne_nil, by simpa [Option.all_eq_true] using first, by simpa [Option.all_eq_true] using last,
          by simpa using unbroken, no_colon⟩,
      fun h => ⟨h.ne_nil, by simpa [Option.all_eq_true] using h.first, by simpa [Option.all_eq_true] using h.last,
        by simpa using h.unbroken, h.no_colon⟩⟩

/-- The blanks at the end of a text, which are read if there is more text behind them. -/
def blanksAtEnd (s : List Char) : List Char :=
  ((s.dropWhile (· ≤ ' ')).reverse.takeWhile (· ≤ ' ')).reverse.filter (!isBreak ·)

variable {s t : List Char} {c : Char}

theorem blank_of_mem (mem : c ∈ blanksAtEnd s) : c ≤ ' ' := by
  have taken := List.mem_reverse.mp (List.mem_filter.mp mem).1
  simpa using List.mem_takeWhile_imp taken

theorem plain_of_blank (blank : c ≤ ' ') : isAuthorityEnd true c = false ∧ isPathEnd c = false := by
  have ends : isAuthorityEnd true c = false := by
    by_contra ends
    rcases isAuthorityEnd_iff.mp (eq_true_of_ne_false ends) with (rfl | rfl) | rfl | rfl <;>
      exact absurd blank (by decide)
  exact ⟨ends, (Bool.or_eq_false_iff.mp ends).2⟩

theorem isPathEnd_of_isSlash (slash : isSlash true c = true) : isPathEnd c = false := by
  rcases isSlash_iff.mp slash with rfl | rfl <;> decide

theorem filter_dropWhile (s : List Char) :
    (s.dropWhile (· ≤ ' ')).filter (!isBreak ·) = clean s ++ blanksAtEnd s := by
  rw [clean, blanksAtEnd, ← List.filter_append, ← List.reverse_append, List.takeWhile_append_dropWhile,
    List.reverse_reverse]

/-- What a URL has of a text with more text behind it. -/
theorem clean_append (visible : IsVisible t) : clean (s ++ t) = clean s ++ blanksAtEnd s ++ t := by
  obtain ⟨first, tail, rfl⟩ := List.exists_cons_of_ne_nil visible.ne_nil
  have above : ¬first ≤ ' ' := Char.not_le.mpr (visible.first first rfl)
  have front : (s ++ first :: tail).dropWhile (· ≤ ' ') = s.dropWhile (· ≤ ' ') ++ first :: tail := by
    rw [List.dropWhile_append]
    split_ifs with none
    · simp [above, List.isEmpty_iff.mp none]
    · rfl
  have back : (s.dropWhile (· ≤ ' ') ++ first :: tail).reverse.dropWhile (· ≤ ' ') =
      (s.dropWhile (· ≤ ' ') ++ first :: tail).reverse := by
    refine dropWhile_visible fun c last => visible.last c ?_
    rwa [List.head?_reverse, List.getLast?_append, List.getLast?_cons, Option.some_or, ← List.getLast?_cons] at last
  have all : (first :: tail).filter (!isBreak ·) = first :: tail := by
    simpa [List.filter_eq_self] using visible.unbroken
  rw [clean, front, back, List.reverse_reverse, List.filter_append, all, filter_dropWhile]

/-- What a URL has of a text does not end with a blank. -/
theorem clean_last (last : c ∈ (clean s).getLast?) : ' ' < c := by
  unfold clean at last
  cases rest : (s.dropWhile (· ≤ ' ')).reverse.dropWhile (· ≤ ' ') with
  | nil =>
    rw [rest] at last
    cases last
  | cons d rest' =>
    have above : ' ' < d := by
      have stopped := List.head?_dropWhile_not (· ≤ ' ') (s.dropWhile (· ≤ ' ')).reverse
      rw [rest] at stopped
      exact Char.not_le.mp (of_decide_eq_false stopped)
    have solid : isBreak d = false := by
      by_contra broken
      simp only [isBreak, Bool.not_eq_false, Bool.or_eq_true, decide_eq_true_eq] at broken
      rcases broken with (rfl | rfl) | rfl <;> exact absurd above (by decide)
    rw [rest, List.reverse_cons, List.filter_append, List.filter_cons_of_pos (by simp [solid]), List.filter_nil,
      List.getLast?_concat] at last
    exact Option.some.inj last ▸ above

/-- What is not ignored of a text: blanks, what a URL has of it, and blanks. -/
theorem exists_filter_eq (s : List Char) : ∃ front, (∀ c ∈ front, c ≤ ' ') ∧
    s.filter (!isBreak ·) = front ++ clean s ++ blanksAtEnd s := by
  refine ⟨(s.takeWhile (· ≤ ' ')).filter (!isBreak ·), fun c mem => ?_, ?_⟩
  · simpa using List.mem_takeWhile_imp (List.mem_filter.mp mem).1
  · rw [List.append_assoc, ← filter_dropWhile, ← List.filter_append, List.takeWhile_append_dropWhile]

/-! ## The scheme -/

theorem scheme?_cons {scheme : String} {r : List Char} : scheme? (c :: s) = some (scheme, r) ↔
    c.isAlpha = true ∧ s.dropWhile isSchemeChar = ':' :: r ∧
      String.ofList ((c :: s.takeWhile isSchemeChar).map Char.toLower) = scheme := by
  simp only [scheme?]
  by_cases letter : c.isAlpha
  · rw [if_pos letter]
    cases s.dropWhile isSchemeChar with
    | nil => simp
    | cons d rest =>
      by_cases colon : d = ':'
      · subst colon
        simp [letter, and_comm]
      · simp [colon]
  · simp [letter]

/-- The scheme of a text is in front of the text behind it. -/
theorem scheme?_append {scheme : String} {r : List Char} (no_colon : ':' ∉ t)
    (start : scheme? (s ++ t) = some (scheme, r)) :
    ∃ rest pre, scheme? s = some (scheme, rest) ∧ r = rest ++ t ∧ s = pre ++ rest ∧
      ∀ c ∈ pre, isPathEnd c = false := by
  have plain (c : Char) (part : isSchemeChar c) : isPathEnd c = false := by
    by_contra ends
    rcases isPathEnd_iff.mp (eq_true_of_ne_false ends) with rfl | rfl <;> exact absurd part (by decide)
  have inside {s r : List Char} (left : s.dropWhile isSchemeChar = ':' :: r) : ':' ∈ s :=
    (List.dropWhile_suffix _).subset (left ▸ List.mem_cons_self)
  cases s with
  | nil =>
    cases t with
    | nil => cases start
    | cons c t =>
      obtain ⟨-, left, -⟩ := scheme?_cons.mp start
      exact absurd (List.mem_cons_of_mem _ (inside left)) no_colon
  | cons c s =>
    rw [List.cons_append] at start
    obtain ⟨letter, left, rfl⟩ := scheme?_cons.mp start
    rw [List.dropWhile_append] at left
    split_ifs at left with none
    · exact absurd (inside left) no_colon
    cases at_colon : s.dropWhile isSchemeChar with
    | nil => exact absurd (by simp [at_colon]) none
    | cons d rest =>
      rw [at_colon, List.cons_append] at left
      obtain ⟨rfl, rfl⟩ := List.cons.inj left
      have whole : s = s.takeWhile isSchemeChar ++ ':' :: rest := by
        rw [← at_colon, List.takeWhile_append_dropWhile]
      have same : (s ++ t).takeWhile isSchemeChar = s.takeWhile isSchemeChar := by
        rw [List.takeWhile_append, if_neg]
        intro all
        have length := congrArg List.length whole
        rw [List.length_append, List.length_cons] at length
        omega
      refine ⟨rest, c :: s.takeWhile isSchemeChar ++ [':'], ?_, rfl, ?_, ?_⟩
      · rw [scheme?_cons, same]
        exact ⟨letter, at_colon, rfl⟩
      · simpa using whole
      · have first : isPathEnd c = false := plain c (by simp [isSchemeChar, Char.isAlphanum, letter])
        have colon : isPathEnd ':' = false := by decide
        simp only [List.cons_append, List.forall_mem_cons, List.forall_mem_append, List.not_mem_nil, false_implies,
          implies_true, and_true]
        exact ⟨first, fun d mem => plain d (List.mem_takeWhile_imp mem), colon⟩

/-! ## Reading -/

theorem parse_scheme {text : String} {u : Url} (read : parse text = .ok u) :
    ∃ r, scheme? (clean text.toList) = some (u.scheme, r) := by
  unfold parse at read
  cases start : scheme? (clean text.toList) with
  | none =>
    rw [start] at read
    cases read
  | some v =>
    obtain ⟨scheme, r⟩ := v
    simp only [start] at read
    refine ⟨r, ?_⟩
    by_cases is_file : scheme = "file"
    · rw [if_pos is_file] at read
      obtain ⟨a, segments, rest, rfl⟩ := file_eq_ok read
      exact is_file ▸ rfl
    rw [if_neg is_file] at read
    by_cases known : isSpecial scheme
    · rw [if_pos known] at read
      obtain ⟨a, segments, rest, rfl⟩ := afterSlashes_eq_ok read
      rfl
    rw [if_neg known] at read
    split at read
    · obtain ⟨a, segments, rest, rfl⟩ := afterSlashes_eq_ok read
      rfl
    · cases read
      rfl
    · cases read
      rfl

theorem isSpecial_web {scheme : String} (web : scheme = "http" ∨ scheme = "https") : isSpecial scheme = true := by
  rcases web with rfl | rfl <;> decide

theorem parse_web {text scheme : String} {r : List Char} (start : scheme? (clean text.toList) = some (scheme, r))
    (web : scheme = "http" ∨ scheme = "https") : parse text = afterSlashes scheme (r.dropWhile (isSlash true)) := by
  have other : scheme ≠ "file" := by rcases web with rfl | rfl <;> decide
  unfold parse
  simp only [start, if_neg other, if_pos (isSpecial_web web)]

/-- A path ends before the query and the fragment. -/
theorem pathAfterHost_of_end (special : Bool) (ends : ¬∀ c ∈ s, isPathEnd c = false) :
    pathAfterHost special (s ++ t) = pathAfterHost special s := by
  have same : (s ++ t).takeWhile (!isPathEnd ·) = s.takeWhile (!isPathEnd ·) := by
    rw [List.takeWhile_append, if_neg]
    intro whole
    have all := (List.takeWhile_prefix (!isPathEnd ·)).eq_of_length whole
    exact ends fun c mem => by simpa using List.takeWhile_eq_self_iff.mp all c mem
  unfold pathAfterHost
  rw [same]

theorem withRest_query {scheme : String} {a : Option Authority} {p : Path} (bare : ∀ c ∈ s, isPathEnd c = false) :
    (withRest scheme a p s).query = none := by
  have none : s.dropWhile (!isPathEnd ·) = [] := List.dropWhile_eq_nil_iff.mpr fun c mem => by simp [bare c mem]
  simp [withRest, none]

/-- What a text is read as by itself and with `more` behind it: the authority is the same, and `path` is
what follows it. The authority ends with `front`. -/
structure Reading (text : String) (more : List Char) (u : Url) (a : Authority) (front path : List Char) :
    Prop where
  alone : parse text = .ok (withRest u.scheme (some a) (pathAfterHost true path) path)
  joined : u = withRest u.scheme (some a) (pathAfterHost true (path ++ (blanksAtEnd text.toList ++ more)))
    (path ++ (blanksAtEnd text.toList ++ more))
  outside : Outside path
  no_blanks : path = [] → blanksAtEnd text.toList = []
  clean_eq : clean text.toList = front ++ path
  front_ne_nil : front ≠ []
  front_plain : ∀ c ∈ front, isPathEnd c = false
  front_last : ∀ c ∈ front.getLast?, isSlash true c = false

theorem exists_reading {text more : String} {root u : Url} (visible : IsVisible more.toList)
    (outside : Outside more.toList) (read : parse (text ++ more) = .ok u)
    (web : u.scheme = "http" ∨ u.scheme = "https") (alone : parse text = .ok root) :
    ∃ a front path, Reading text more.toList u a front path := by
  have special := isSpecial_web web
  obtain ⟨r, start⟩ := parse_scheme read
  have whole := parse_web start web
  rw [String.toList_append, clean_append visible, List.append_assoc] at start
  have no_colon : ':' ∉ blanksAtEnd text.toList ++ more.toList := by
    intro mem
    rcases List.mem_append.mp mem with mem | mem
    · exact absurd (blank_of_mem mem) (by decide)
    · exact visible.no_colon mem
  obtain ⟨rest, pre, first, rfl, text_eq, plain⟩ := scheme?_append no_colon start
  rw [parse_web first web] at alone
  obtain ⟨front, path, a, split, some_front, inside, ends, ⟨left, known⟩, rfl⟩ := afterSlashes_parts special alone
  have authority_first : (rest ++ (blanksAtEnd text.toList ++ more.toList)).dropWhile (isSlash true) =
      front ++ (path ++ (blanksAtEnd text.toList ++ more.toList)) := by
    rw [List.dropWhile_append, if_neg, split, List.append_assoc]
    simp [split, some_front]
  rw [read, authority_first] at whole
  have no_blanks : path = [] → blanksAtEnd text.toList = [] := by
    rintro rfl
    by_contra blanks
    -- the authority would end with a blank
    obtain ⟨others, c, last⟩ := (List.eq_nil_or_concat' _).resolve_left blanks
    have blank : c ≤ ' ' := blank_of_mem (last ▸ List.mem_append_right _ List.mem_cons_self)
    have more_inside : Inside (front ++ others ++ [c]) := by
      rw [List.append_assoc, ← last]
      exact List.forall_mem_append.mpr ⟨inside, fun d mem => (plain_of_blank (blank_of_mem mem)).1⟩
    have moved : front ++ ([] ++ (blanksAtEnd text.toList ++ more.toList)) =
        front ++ others ++ [c] ++ more.toList := by simp [last]
    obtain ⟨e, refused⟩ := readAuthority_blank blank special more_inside
    rw [moved, afterSlashes_append special more_inside outside, refused] at whole
    cases whole
  have ends_still : Outside (path ++ (blanksAtEnd text.toList ++ more.toList)) := by
    cases path with
    | nil =>
      rw [no_blanks rfl]
      exact outside
    | cons c path => exact ends
  rw [afterSlashes_append special inside ends_still, known] at whole
  refine ⟨a, pre ++ rest.takeWhile (isSlash true) ++ front, path, ?_, Except.ok.inj whole, ends, no_blanks,
    ?_, by simp [some_front], ?_, ?_⟩
  · rw [parse_web first web, alone]
  · rw [text_eq, List.append_assoc, List.append_assoc, ← split, List.takeWhile_append_dropWhile]
  · have slash (c : Char) (mem : c ∈ rest.takeWhile (isSlash true)) : isPathEnd c = false :=
      isPathEnd_of_isSlash (List.mem_takeWhile_imp mem)
    simp only [List.forall_mem_append]
    exact ⟨⟨plain, slash⟩, fun c mem => (Bool.or_eq_false_iff.mp (inside c mem)).2⟩
  · intro c last
    obtain ⟨others, d, rfl⟩ := (List.eq_nil_or_concat' front).resolve_left some_front
    rw [← List.append_assoc, List.getLast?_concat] at last
    obtain rfl := Option.some.inj last
    exact (Bool.or_eq_false_iff.mp (inside d (by simp))).1

end TierTagger.Url
