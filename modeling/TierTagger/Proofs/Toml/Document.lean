import TierTagger.Proofs.Toml.Scalars

/-!
# Documents are read

The values and lines of the grammar are read as what they stand for, and so is a whole text.

* `IsValue.reads`: a value is read where a value may end.
* `IsLine.reads`: a line is read with its end.
* `IsDocument.parse`: what a text of the grammar states is decided by its lines.
-/

namespace TierTagger.Toml

open Reader

variable {s t r b n g k : List Char} {P : List Char → Node → Prop} {p : Reader Node}

/-! ## Starts of values -/

/-- A text that starts with a character that is no blank and starts no comment or end of line. -/
def Opens (s : List Char) : Prop := ∃ c s', s = c :: s' ∧ isBlank c = false ∧ c ≠ '#' ∧ c ≠ '\n' ∧ c ≠ '\r'

theorem Opens.solid (opens : Opens s) (r : List Char) : Solid (s ++ r) := by
  obtain ⟨c, s, rfl, solid⟩ := opens
  intro d head
  obtain rfl := Option.some.inj head
  exact solid

theorem opens_digit (digit : ∃ c s', s = c :: s' ∧ c.isDigit) : Opens s := by
  obtain ⟨c, s, rfl, digit⟩ := digit
  have no_blank : isBlank c = false := by
    rw [isBlank, decide_eq_false (isDigit_ne digit rfl), decide_eq_false (isDigit_ne digit rfl)]
    rfl
  exact ⟨c, s, rfl, no_blank, isDigit_ne digit rfl, isDigit_ne digit rfl, isDigit_ne digit rfl⟩

theorem IsSign.opens {sign : List Char} {negative : Bool} (isSign : IsSign sign negative) (opens : Opens s) :
    Opens (sign ++ s) := by
  cases isSign with
  | absent => exact opens
  | plus | minus => exact ⟨_, _, rfl, by decide⟩

theorem Opens.append (opens : Opens s) (r : List Char) : Opens (s ++ r) := by
  obtain ⟨c, s, rfl, solid⟩ := opens
  exact ⟨c, _, rfl, solid⟩

theorem IsScalar.opens {x : Scalar} (isScalar : IsScalar s x) : Opens s := by
  cases isScalar with
  | text string =>
    cases string with
    | basic string | literal string =>
      obtain ⟨_⟩ := string
      exact ⟨_, _, rfl, by decide⟩
    | basicBlock block | literalBlock block =>
      cases block <;> exact ⟨_, _, rfl, by decide⟩
  | time isTime => exact opens_digit isTime.first
  | float isFloat =>
    cases isFloat with
    | decimal isSign whole => exact isSign.opens ((opens_digit whole.first).append _)
    | infinite isSign | nan isSign => exact isSign.opens ⟨_, _, rfl, by decide⟩
  | integer isInteger =>
    cases isInteger with
    | decimal isSign decimal => exact isSign.opens (opens_digit decimal.first)
    | based => exact ⟨_, _, rfl, by decide⟩
  | boolTrue | boolFalse => exact ⟨_, _, rfl, by decide⟩

/-! ## Arrays and tables -/

theorem IsTail.ends (tail : IsTail t) (ended : ∀ c ∈ r.head?, c = '\n' ∨ c = '\r') : Ends (t ++ r) := by
  cases tail with
  | blanks blanks => exact .of blanks fun c head => by rcases ended c head with rfl | rfl <;> decide
  | comment blanks _ =>
    rw [List.append_assoc]
    exact .of blanks fun c head => by cases head; decide

theorem IsGap.ends (gap : IsGap g) (mark : ∀ c ∈ r.head?, c = ',' ∨ c = ']') : Ends (g ++ r) := by
  cases gap with
  | blanks blanks => exact .of blanks fun c head => by rcases mark c head with rfl | rfl <;> decide
  | line tail newline _ =>
    rw [List.append_assoc, List.append_assoc]
    refine tail.ends fun c head => ?_
    obtain ⟨d, first, ended⟩ := newline.first (_ ++ r)
    exact Option.some.inj (first.symm.trans head) ▸ ended

/-- What the values in an array or a table are, and how they are read. -/
structure Sound (P : List Char → Node → Prop) (p : Reader Node) : Prop where
  reads : ∀ {s v r}, P s v → Ends r → Reads p s v r
  opens : ∀ {s v}, P s v → Opens s
  fails : ∀ r, Fails p (']' :: r)

/-- What stands behind an item of an array. -/
def EndsItem (r : List Char) : Prop := ∀ c ∈ r.head?, c = ',' ∨ c = ']'

theorem EndsItem.solid (ends : EndsItem r) : Solid r := fun c head => by
  rcases ends c head with rfl | rfl <;> decide

theorem IsItem.reads (sound : Sound P p) {v : Node} (item : IsItem P s v) (ends : EndsItem r) :
    Reads (do gap; let v ← p; gap; return v) s v r := by
  obtain @⟨g, s, v, g', before, value, after⟩ := item
  have at_value : Solid (s ++ g' ++ r) := ((sound.opens value).append g').solid r
  exact Reads.bind (before.reads at_value) (Reads.bind (sound.reads value (after.ends ends))
    (after.reads ends.solid).bind_pure)

theorem fails_item (sound : Sound P p) (gap : IsGap g) (r : List Char) :
    Fails (do Toml.gap; let v ← p; Toml.gap; return v) (g ++ ']' :: r) :=
  (gap.reads fun c head => by cases head; decide).bind_fails (sound.fails r).bind

theorem reads_items (sound : Sound P p) {vs : List Node} (items : Separated (IsItem P) ',' s vs)
    (ends : EndsItem r) (last : Fails (do let _ ← char ','; gap; let v ← p; gap; return v) r) :
    Reads (separated (do gap; let v ← p; gap; return v) (char ',')) s vs r :=
  items.reads (fun _ _ _ item (ends : EndsItem _) => item.reads sound ends)
    (fun t c head => by cases head; exact .inl rfl) ends last

theorem IsArray.reads (sound : Sound P p) {v : Node} (isArray : IsArray P s v) (r : List Char) :
    Reads (array p) s v r := by
  have closed (vs : Option (List Node)) {g : List Char} (gap : IsGap g) : Reads (do
      Toml.gap
      let _ ← char ']'
      return Node.array (vs.getD [])) (g ++ [']']) (.array (vs.getD [])) r :=
    Reads.bind (gap.reads fun c head => by cases head; decide) (reads_char ']' r).bind_pure
  cases isArray with
  | @empty g gap =>
    have nothing : Fails (do
        let items ← separated (do Toml.gap; let v ← p; Toml.gap; return v) (char ',')
        let _ ← optional (char ',')
        return items) (g ++ [']'] ++ r) := by
      rw [List.append_assoc]
      exact (fails_item sound gap r).bind.bind
    exact Reads.bind (s := ['[']) (reads_char '[' _) (Reads.bind (s := []) nothing.optional (closed none gap))
  | @items s vs items =>
    have no_comma : Fails (char ',') (']' :: r) := fails_char (by simp)
    have all : Reads (do
        let items ← separated (do Toml.gap; let v ← p; Toml.gap; return v) (char ',')
        let _ ← optional (char ',')
        return items) s vs (']' :: r) :=
      (reads_items sound items (fun c head => by cases head; exact .inr rfl) no_comma.bind).bind_nil
        no_comma.optional.bind_pure
    exact Reads.bind (s := ['[']) (reads_char '[' _) (Reads.bind all.optional (closed (some vs) (.blanks blanks_nil)))
  | @comma s vs g items gap =>
    have last : Fails (do let _ ← char ','; Toml.gap; let v ← p; Toml.gap; return v) (',' :: (g ++ ']' :: r)) :=
      Reads.bind_fails (s := [',']) (reads_char ',' _) (fails_item sound gap r)
    have all : Reads (do
        let items ← separated (do Toml.gap; let v ← p; Toml.gap; return v) (char ',')
        let _ ← optional (char ',')
        return items) (s ++ [',']) vs (g ++ ']' :: r) :=
      Reads.bind (reads_items sound items (fun c head => by cases head; exact .inl rfl) last)
        (reads_char ',' _).optional.bind_pure
    have whole : Reads (array p) ('[' :: (s ++ [','] ++ (g ++ [']']))) (.array vs) r :=
      Reads.bind (s := ['[']) (reads_char '[' _) (Reads.bind (by simpa using all.optional) (closed (some vs) gap))
    simpa using whole

/-- What stands behind a pair of a table that is a value. -/
def EndsPair (r : List Char) : Prop := ∀ c ∈ r.head?, c = ',' ∨ c = '\x7d'

/-- What stands behind the pairs of a table that is a value. -/
def closing (pairs : Option (List Assignment)) : Reader Node := do
  blanks
  let _ ← char '\x7d'
  match Entries.assignAll (pairs.getD []) [] with
  | some es => return .inline es
  | none => failure

/-- A key with its value. -/
def pair (p : Reader Node) : Reader Assignment := do
  let (path, key) ← dottedKey
  let _ ← char '='
  blanks
  let v ← p
  blanks
  return ⟨path, key, v⟩

theorem IsPair.reads (sound : Sound P p) {a : Assignment} (isPair : IsPair P s a) (ends : EndsPair r) :
    Reads (pair p) s a r := by
  obtain @⟨k, path, key, b, s, v, b', isKey, before, value, after⟩ := isPair
  have no_blank : ∀ c ∈ r.head?, isBlank c = false := fun c head => by
    rcases ends c head with rfl | rfl <;> rfl
  have at_end : Ends (b' ++ r) := .of after fun c head => by rcases ends c head with rfl | rfl <;> decide
  have at_value : Solid (s ++ b' ++ r) := ((sound.opens value).append b').solid r
  exact Reads.bind (isKey.reads fun c head => by cases head; exact .inl rfl)
    (Reads.bind (s := ['=']) (reads_char '=' _) (Reads.bind (before.reads fun c head => (at_value c head).1)
      (Reads.bind (sound.reads value at_end) (after.reads no_blank).bind_pure)))

theorem fails_dottedKey (blanks : Blanks b) (other : ∀ c ∈ r.head?, isBlank c = false ∧ ¬OpensKey c) :
    Fails dottedKey (b ++ r) :=
  (fails_part blanks other).bind.filterMap

theorem IsInline.reads (sound : Sound P p) {v : Node} (isInline : IsInline P s v) (r : List Char) :
    Reads (inlineTable p) s v r := by
  have closed (as : Option (List Assignment)) {es : Entries} {b : List Char} (blanks : Blanks b)
      (made : Entries.assignAll (as.getD []) [] = some es) : Reads (closing as) (b ++ ['\x7d']) (.inline es) r := by
    rw [closing, made]
    exact Reads.bind (blanks.reads fun c head => by cases head; rfl) (reads_char '\x7d' r).bind_pure
  cases isInline with
  | @empty b blanks =>
    have nothing : Fails (separated (pair p) (char ',')) (b ++ ['\x7d'] ++ r) := by
      rw [List.append_assoc]
      exact (fails_dottedKey blanks fun c head => by cases head; decide).bind.bind
    exact Reads.bind (s := ['\x7b']) (reads_char '\x7b' _)
      (Reads.bind (s := []) nothing.optional (closed none blanks rfl))
  | @pairs s as es pairs made =>
    have no_comma : Fails (char ',') ('\x7d' :: r) := fails_char (by simp)
    have all : Reads (separated (pair p) (char ',')) s as ('\x7d' :: r) :=
      pairs.reads (fun _ _ _ isPair (ends : EndsPair _) => isPair.reads sound ends)
        (fun t c head => by cases head; exact .inl rfl) (fun c head => by cases head; exact .inr rfl) no_comma.bind
    exact Reads.bind (s := ['\x7b']) (reads_char '\x7b' _)
      (Reads.bind all.optional (closed (some as) blanks_nil made))

/-! ## Values -/

theorem fails_value (depth : Nat) {c : Char} (other : Unscalar (c :: r)) (no_array : c ≠ '[')
    (no_table : c ≠ '\x7b') : Fails (value depth) (c :: r) := by
  have no_scalar : Fails (Node.scalar <$> scalar) (c :: r) := (fails_scalar other).map
  cases depth with
  | zero => exact no_scalar
  | succ depth =>
    have no_array : Fails (array (value depth)) (c :: r) := (fails_char (by simpa using no_array)).bind
    have no_table : Fails (inlineTable (value depth)) (c :: r) := (fails_char (by simpa using no_table)).bind
    exact no_scalar.orElse_fails (no_array.orElse_fails no_table)

theorem IsArray.opens {v : Node} (isArray : IsArray P s v) : ∃ s', s = '[' :: s' := by
  cases isArray <;> exact ⟨_, rfl⟩

theorem IsInline.opens {v : Node} (isInline : IsInline P s v) : ∃ s', s = '\x7b' :: s' := by
  cases isInline <;> exact ⟨_, rfl⟩

/-- A value of the grammar is read where a value may end, however deep it is nested. -/
theorem sound_value (depth : Nat) : Sound (IsValue depth) (value depth) := by
  induction depth with
  | zero =>
    constructor
    case reads =>
      rintro s v r ⟨x, isScalar, rfl⟩ ends
      exact (isScalar.reads ends).map
    case opens =>
      rintro s v ⟨x, isScalar, rfl⟩
      exact isScalar.opens
    case fails => exact fun r => fails_value 0 (fun c head => by cases head; decide) (by decide) (by decide)
  | succ depth ih =>
    constructor
    case reads =>
      rintro s v r (⟨x, isScalar, rfl⟩ | isArray | isInline) ends
      · exact (isScalar.reads ends).map.orElse
      · obtain ⟨s', rfl⟩ := isArray.opens
        have no_scalar : Fails scalar ('[' :: s' ++ r) := fails_scalar fun c head => by cases head; decide
        exact no_scalar.map.orElse (isArray.reads ih r).orElse
      · obtain ⟨s', rfl⟩ := isInline.opens
        have no_scalar : Fails scalar ('\x7b' :: s' ++ r) := fails_scalar fun c head => by cases head; decide
        have no_array : Fails (array (value depth)) ('\x7b' :: s' ++ r) := (fails_char (by simp)).bind
        exact no_scalar.map.orElse (no_array.orElse (isInline.reads ih r))
    case opens =>
      rintro s v (⟨x, isScalar, rfl⟩ | isArray | isInline)
      · exact isScalar.opens
      · obtain ⟨s', rfl⟩ := isArray.opens
        exact ⟨_, _, rfl, by decide⟩
      · obtain ⟨s', rfl⟩ := isInline.opens
        exact ⟨_, _, rfl, by decide⟩
    case fails => exact fun r => fails_value _ (fun c head => by cases head; decide) (by decide) (by decide)

/-! ## Lines -/

/-- The end of a line, where `r` follows: that of the last line may be the end of the text. -/
inductive LineStop : List Char → List Char → Prop
  | newline {n r : List Char} (newline : IsNewline n) : LineStop n r
  | ending : LineStop [] []

theorem LineStop.first (stop : LineStop n r) : ∀ c ∈ (n ++ r).head?, c = '\n' ∨ c = '\r' := by
  intro c head
  cases stop with
  | newline newline =>
    obtain ⟨d, first, ended⟩ := newline.first r
    exact Option.some.inj (first.symm.trans head) ▸ ended
  | ending => cases head

theorem IsTail.reads_lineEnd (tail : IsTail t) (stop : LineStop n r) : Reads lineEnd (t ++ n) () r := by
  refine tail.reads_bind stop.first ?_
  cases stop with
  | newline newline => exact (newline.reads r).orElse
  | ending =>
    have no_newline : Fails newline ([] ++ []) := fails_newline nofun
    exact no_newline.orElse rfl

/-- Blanks may be read before the rest of what stands behind the last item. -/
theorem IsTail.split (tail : IsTail t) : ∃ b t', t = b ++ t' ∧ Blanks b ∧ IsTail t' ∧ ∀ c ∈ t'.head?, c = '#' := by
  cases tail with
  | blanks blanks => exact ⟨_, [], by simp, blanks, .blanks blanks_nil, nofun⟩
  | @comment b c blanks comment =>
    exact ⟨b, '#' :: c, rfl, blanks, .comment blanks_nil comment, fun d head => (Option.some.inj head).symm⟩

/-- Blanks may be read before the rest of a dotted key. -/
theorem IsDottedKey.split {path : List String} {key : String} (isKey : IsDottedKey k path key) :
    ∃ b k', k = b ++ k' ∧ Blanks b ∧ IsDottedKey k' path key ∧ ∃ c k'', k' = c :: k'' ∧ OpensKey c := by
  obtain ⟨parts, short⟩ := isKey
  generalize same : path ++ [key] = keys at parts
  cases parts with
  | one part =>
    obtain @⟨b, k, key', b', before, isKey, after⟩ := part
    obtain ⟨c, k'', rfl, opens⟩ := isKey.first
    refine ⟨b, c :: k'' ++ b', rfl, before, ⟨same ▸ .one (.of blanks_nil isKey after), short⟩, c, _, rfl, opens⟩
  | @more _ t _ as part rest =>
    obtain @⟨b, k, key', b', before, isKey, after⟩ := part
    obtain ⟨c, k'', rfl, opens⟩ := isKey.first
    refine ⟨b, c :: k'' ++ b' ++ '.' :: t, by simp, before, ⟨same ▸ .more (.of blanks_nil isKey after) rest, short⟩,
      c, _, rfl, opens⟩

/-- A dotted key does not start with a bracket. -/
theorem IsDottedKey.first {path : List String} {key : String} (isKey : IsDottedKey k path key) (r : List Char) :
    ∀ u, k ++ r ≠ '[' :: u := by
  obtain ⟨b, k', rfl, blanks, -, c, k'', rfl, opens⟩ := isKey.split
  intro u same
  cases b with
  | nil => exact opens.ne (by decide) (List.cons.inj same).1
  | cons d b =>
    obtain rfl := (List.cons.inj same).1
    exact absurd (blanks '[' (.head _)) (by decide)

theorem fails_header (other : s.head? ≠ some '[') : Fails header s := by
  have no_element : Fails (word ['[', '[']) s := fails_word fun ⟨_, same⟩ => other (by simp [← same])
  have no_table : Fails (word ['[']) s := fails_word fun ⟨_, same⟩ => other (by simp [← same])
  exact (no_element.bind.orElse_fails no_table.bind).bind

theorem fails_assignment (other : ∀ c ∈ s.head?, isBlank c = false ∧ ¬OpensKey c) : Fails assignment s :=
  (fails_dottedKey blanks_nil other).bind

/-- A line is read with its end. -/
theorem IsLine.reads {l : Line} (isLine : IsLine s l) (stop : LineStop n r) : Reads line (s ++ n) l r := by
  cases isLine with
  | blank tail =>
    obtain ⟨b, t', rfl, blanks, tail, mark⟩ := tail.split
    have first : ∀ c ∈ (t' ++ n ++ r).head?, c = '#' ∨ c = '\n' ∨ c = '\r' := fun c head => by
      rw [List.append_assoc] at head
      cases t' with
      | nil => exact .inr (stop.first c head)
      | cons d t' => exact .inl (mark c head)
    have no_header : Fails header (t' ++ n ++ r) := fails_header fun head => by
      rcases first _ head with same | same | same <;> cases same
    have no_assignment : Fails Toml.assignment (t' ++ n ++ r) := fails_assignment fun c head => by
      rcases first c head with rfl | rfl | rfl <;> decide
    have read : Reads Toml.blanks b () (t' ++ n ++ r) := blanks.reads fun c head => by
      rcases first c head with rfl | rfl | rfl <;> rfl
    rw [List.append_assoc]
    exact Reads.bind read (no_header.orElse (no_assignment.orElse (tail.reads_lineEnd stop).bind_pure))
  | @assignment k path key b s v t isKey before value tail =>
    obtain ⟨b', k', rfl, padding, isKey, c, k'', first, opens⟩ := isKey.split
    have at_value : Solid (s ++ (t ++ n) ++ r) := (((sound_value deepest).opens value).append (t ++ n)).solid r
    have at_end : Ends (t ++ n ++ r) := by
      rw [List.append_assoc]
      exact tail.ends stop.first
    have read : Reads Toml.assignment (k' ++ '=' :: (b ++ (s ++ (t ++ n)))) (.assignment ⟨path, key, v⟩) r :=
      Reads.bind (isKey.reads fun c head => by cases head; exact .inl rfl)
        (Reads.bind (s := ['=']) (reads_char '=' _) (Reads.bind (before.reads fun c head => (at_value c head).1)
          (Reads.bind ((sound_value deepest).reads value at_end) (tail.reads_lineEnd stop).bind_pure)))
    have no_header : Fails header (k' ++ '=' :: (b ++ (s ++ (t ++ n))) ++ r) := fails_header fun head => by
      subst first
      exact opens.ne (by decide) (Option.some.inj head)
    have at_key : Reads Toml.blanks b' () (k' ++ '=' :: (b ++ (s ++ (t ++ n))) ++ r) := padding.reads fun d head => by
      subst first
      obtain rfl := Option.some.inj head
      exact opens.solid
    have text : b' ++ k' ++ '=' :: (b ++ (s ++ t)) ++ n = b' ++ (k' ++ '=' :: (b ++ (s ++ (t ++ n)))) := by simp
    rw [text]
    exact Reads.bind at_key (no_header.orElse read.orElse)
  | @table b k path key t before isKey tail =>
    have kind : Reads ((do word ['[', '[']; return HeaderKind.element) <|> (do word ['[']; return .table)) ['[']
        .table (k ++ ']' :: (t ++ n) ++ r) := by
      have no_element : Fails (word ['[', '[']) (['['] ++ (k ++ ']' :: (t ++ n) ++ r)) := fails_word fun ⟨u, same⟩ =>
        isKey.first (']' :: (t ++ n) ++ r) u (by simpa using same.symm)
      exact no_element.bind.orElse (reads_word ['['] _).bind_pure
    have read : Reads header ('[' :: (k ++ ']' :: (t ++ n))) (.header .table path key) r :=
      Reads.bind (s := ['[']) kind (Reads.bind (isKey.reads fun c head => by cases head; exact .inr rfl)
        (Reads.bind (s := [']']) (reads_word [']'] _) (tail.reads_lineEnd stop).bind_pure))
    have at_header : Reads Toml.blanks b () ('[' :: (k ++ ']' :: (t ++ n)) ++ r) :=
      before.reads fun c head => by cases head; rfl
    have text : b ++ '[' :: (k ++ ']' :: t) ++ n = b ++ '[' :: (k ++ ']' :: (t ++ n)) := by simp
    rw [text]
    exact Reads.bind at_header read.orElse
  | @element b k path key t before isKey tail =>
    have read : Reads header ('[' :: '[' :: (k ++ ']' :: ']' :: (t ++ n))) (.header .element path key) r := by
      refine Reads.bind (s := ['[', '[']) (reads_word ['[', '['] _).bind_pure.orElse ?_
      exact Reads.bind (isKey.reads fun c head => by cases head; exact .inr rfl)
        (Reads.bind (s := [']', ']']) (reads_word [']', ']'] _) (tail.reads_lineEnd stop).bind_pure)
    have at_header : Reads Toml.blanks b () ('[' :: '[' :: (k ++ ']' :: ']' :: (t ++ n)) ++ r) :=
      before.reads fun c head => by cases head; rfl
    have text : b ++ '[' :: '[' :: (k ++ ']' :: ']' :: t) ++ n =
        b ++ '[' :: '[' :: (k ++ ']' :: ']' :: (t ++ n)) := by simp
    rw [text]
    exact Reads.bind at_header read.orElse

/-! ## Texts -/

/-- A header ends what stands before it, and has what stands behind it up to the next one. -/
theorem sections_append (before rest : List Line) (kind : HeaderKind) (path : List String) (key : String) :
    sections (before ++ .header kind path key :: rest) =
      ((sections before).1, (sections before).2 ++ ⟨kind, path, key, (sections rest).1⟩ :: (sections rest).2) := by
  induction before with
  | nil => rfl
  | cons l before ih =>
    rw [List.cons_append, sections, ih]
    cases l <;> rfl

theorem IsLines.reads {ls : List Line} (lines : IsLines s ls) : Reads (many line) s ls [] := by
  have done : Reads (many line) [] [] [] := by
    -- An empty line could be read at the end, but nothing would be taken away.
    have empty : line [] = some (.blank, []) := (IsLine.blank (.blanks blanks_nil)).reads .ending
    rw [Reads, many, List.append_nil, repeated, empty]
    rfl
  induction lines with
  | nil => exact done
  | @last s l full isLine =>
    have first : Reads line (s ++ []) l [] := isLine.reads .ending
    have all := Reads.many (by simpa using full) first done
    rwa [List.append_nil, List.append_nil] at all
  | @next s l n t ls isLine newline _ ih =>
    have full : s ++ n ≠ [] := by cases newline <;> simp
    have all := Reads.many full (isLine.reads (.newline newline)) ih
    rwa [List.append_assoc] at all

/-- What starts no line. -/
theorem fails_line {c : Char} (no_key : isBlank c = false ∧ ¬OpensKey c) (no_mark : c ∉ ['[', '#', '\n', '\r'])
    (r : List Char) : Fails line (c :: r) := by
  have apart (d : Char) (known : d ∈ ['[', '#', '\n', '\r']) : c ≠ d := fun same => no_mark (same ▸ known)
  have no_blanks : Reads Toml.blanks [] () (c :: r) := blanks_nil.reads fun d head => by cases head; exact no_key.1
  have no_header : Fails header (c :: r) := fails_header (by simpa using apart '[' (by decide))
  have no_assignment : Fails assignment (c :: r) := fails_assignment fun d head => by cases head; exact no_key
  have no_comment : Fails comment (c :: r) := (fails_char (by simpa using apart '#' (by decide))).bind
  have no_newline : Fails newline (c :: r) :=
    fails_newline fun d head => by cases head; exact ⟨apart '\n' (by decide), apart '\r' (by decide)⟩
  have no_end : Fails ending (c :: r) := rfl
  have no_lineEnd : Fails lineEnd (c :: r) :=
    no_blanks.bind_fails (no_comment.optional.bind_fails (no_newline.orElse_fails no_end))
  exact no_blanks.bind_fails (no_header.orElse_fails (no_assignment.orElse_fails no_lineEnd.bind))

/-- What a text of the grammar states is decided by its lines. -/
theorem IsDocument.parse {text : String} {ls : List Line} (document : IsDocument text ls) :
    parse? text = Entries.ofDocument (sections ls).1 (sections ls).2 := by
  have read {s : List Char} (lines : IsLines s ls) : many line s = some (ls, []) := by
    have read := lines.reads
    rwa [Reads, List.append_nil] at read
  cases document with
  | marked marked lines => simp only [parse?, marked, read lines]
  | plain lines =>
    have all := read lines
    cases at_text : text.toList with
    | nil =>
      rw [at_text] at all
      simp only [parse?, at_text, all]
    | cons c s =>
      rw [at_text] at all
      have unmarked : c ≠ '\ufeff' := by
        rintro rfl
        have none : Fails line ('\ufeff' :: s) := fails_line (by decide) (by decide) s
        have stuck := none.many.symm.trans all
        cases stuck
      unfold parse?
      rw [at_text]
      split
      · rename_i front
        exact absurd (List.cons.inj front).1 unmarked
      · simp only [all]

end TierTagger.Toml
