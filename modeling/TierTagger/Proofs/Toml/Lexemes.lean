import TierTagger.Proofs.Toml.Grammar

/-!
# Lexemes are read

Each lexeme of the grammar is read as what it stands for, provided that what follows does not go on it.

* `IsTail.reads_bind`, `IsGap.reads`: blanks, comments and ends of lines.
* `IsString.reads`: strings of the four kinds.
* `IsDottedKey.reads`: dotted keys.
-/

namespace TierTagger.Toml

open Text
open Reader

variable {α : Type} {s t r b n g : List Char}

/-! ## Blanks -/

theorem Blanks.reads (blanks : Blanks b) (ends : ∀ c ∈ r.head?, isBlank c = false) :
    Reads Toml.blanks b () r :=
  (reads_run blanks ends).bind_pure

theorem blanks_nil : Blanks [] := nofun

theorem IsNewline.reads (newline : IsNewline n) (r : List Char) : Reads Toml.newline n () r := by
  cases newline with
  | feed => exact (reads_word ['\n'] r).orElse
  | return_ =>
    have no_feed : Fails (word ['\n']) (['\r', '\n'] ++ r) := fails_word (by simp)
    exact no_feed.orElse (reads_word _ r)

/-- What no line end starts. -/
def Unended (r : List Char) : Prop := ∀ c ∈ r.head?, c ≠ '\n' ∧ c ≠ '\r'

theorem fails_newline (unended : Unended r) : Fails newline r := by
  have no_feed : Fails (word ['\n']) r := fails_word fun ⟨_, same⟩ => (unended '\n' (by simp [← same])).1 rfl
  have no_return : Fails (word ['\r', '\n']) r :=
    fails_word fun ⟨_, same⟩ => (unended '\r' (by simp [← same])).2 rfl
  exact no_feed.orElse_fails no_return

theorem IsNewline.first (newline : IsNewline n) (r : List Char) :
    ∃ c, (n ++ r).head? = some c ∧ (c = '\n' ∨ c = '\r') := by
  cases newline with
  | feed => exact ⟨_, rfl, .inl rfl⟩
  | return_ => exact ⟨_, rfl, .inr rfl⟩

/-- Blanks and a comment, and then the end of the line or of the text. -/
theorem IsTail.reads_bind {p : Reader α} {a : α} (tail : IsTail t)
    (ended : ∀ c ∈ (s ++ r).head?, c = '\n' ∨ c = '\r') (read : Reads p s a r) :
    Reads (do Toml.blanks; let _ ← optional Toml.comment; p) (t ++ s) a r := by
  have no_blank : ∀ c ∈ (s ++ r).head?, isBlank c = false := fun c head => by
    rcases ended c head with rfl | rfl <;> rfl
  have no_comment : ∀ c ∈ (s ++ r).head?, isCommentChar c = false := fun c head => by
    rcases ended c head with rfl | rfl <;> rfl
  have no_mark : (s ++ r).head? ≠ some '#' := fun head => by
    rcases ended _ head with same | same <;> cases same
  cases tail with
  | blanks blanks =>
    have absent : Reads (optional Toml.comment) [] none (s ++ r) := (fails_char no_mark).bind.optional
    exact Reads.bind (blanks.reads no_blank) (Reads.bind absent read)
  | @comment b c blanks all =>
    have present : Reads Toml.comment ('#' :: c) () (s ++ r) :=
      Reads.bind (s := ['#']) (reads_char '#' _) (reads_run all no_comment).bind_pure
    have after : Reads Toml.blanks b () ('#' :: c ++ s ++ r) :=
      blanks.reads fun x head => by cases head; rfl
    rw [List.append_assoc]
    exact Reads.bind after (Reads.bind present.optional read)

/-- What stands at the end of a gap. -/
def Solid (r : List Char) : Prop := ∀ c ∈ r.head?, isBlank c = false ∧ c ≠ '#' ∧ c ≠ '\n' ∧ c ≠ '\r'

theorem IsGap.reads (gap : IsGap g) (solid : Solid r) : Reads Toml.gap g () r := by
  have no_blank : ∀ c ∈ r.head?, isBlank c = false := fun c head => (solid c head).1
  have split : ∃ ls b us, g = ls ++ b ∧ Reads Toml.blanks b () r ∧
      Reads (many (do Toml.blanks; let _ ← optional comment; newline)) ls us (b ++ r) := by
    induction gap with
    | @blanks b blanks =>
      have no_comment : Reads (optional comment) [] none r :=
        (fails_char fun head => (solid _ head).2.1 rfl).bind.optional
      have no_end : Fails newline r := fails_newline fun c head => (solid c head).2.2
      have ends : Fails (do Toml.blanks; let _ ← optional comment; newline) (b ++ r) :=
        (blanks.reads no_blank).bind_fails (no_comment.bind_fails no_end)
      exact ⟨[], b, [], rfl, blanks.reads no_blank, ends.many⟩
    | @line t n g tail newline _ ih =>
      obtain ⟨ls, b, us, rfl, last, later⟩ := ih
      have first : Reads (do Toml.blanks; let _ ← optional comment; Toml.newline) (t ++ n) () (ls ++ (b ++ r)) := by
        refine tail.reads_bind (fun c head => ?_) (newline.reads _)
        obtain ⟨d, same, ended⟩ := newline.first (ls ++ (b ++ r))
        exact Option.some.inj (same.symm.trans head) ▸ ended
      have full : t ++ n ≠ [] := by cases newline <;> simp
      refine ⟨t ++ n ++ ls, b, () :: us, by simp, last, Reads.many full first later⟩
  obtain ⟨ls, b, us, rfl, last, lines⟩ := split
  exact Reads.bind lines last

/-! ## Escapes -/

theorem reads_codePoint {k : Nat} {ds : List Char} (long : ds.length = k) (hex : ∀ d ∈ ds, Numeral.isDigit 16 d)
    (valid : (Numeral.value 16 ds).isValidChar) (r : List Char) :
    Reads (codePoint k) ds (.ofNat (Numeral.value 16 ds)) r :=
  (reads_exactly long hex r).filterMap (if_pos valid)

theorem IsEscape.reads {e : List Char} {c : Char} (escape : IsEscape e c) (r : List Char) :
    Reads escaped e c r := by
  cases escape with
  | @letter e c letter =>
    have no_short : e ≠ 'u' := by
      rintro rfl
      cases letter
    have no_long : e ≠ 'U' := by
      rintro rfl
      cases letter
    refine Reads.bind (s := ['\\']) (reads_char _ _) ?_
    refine Reads.bind (s := [e]) (t := []) (reads_satisfy rfl _) ?_
    split
    · contradiction
    · contradiction
    · rw [letter]
      exact .pure c r
  | @short ds four hex valid =>
    refine Reads.bind (s := ['\\']) (reads_char _ _) ?_
    exact Reads.bind (s := ['u']) (reads_satisfy rfl _) (reads_codePoint four hex valid r)
  | @long ds eight hex valid =>
    refine Reads.bind (s := ['\\']) (reads_char _ _) ?_
    exact Reads.bind (s := ['U']) (reads_satisfy rfl _) (reads_codePoint eight hex valid r)

theorem IsEscape.first {e : List Char} {c : Char} (escape : IsEscape e c) :
    ∃ x e', e = '\\' :: x :: e' ∧ isBlank x = false ∧ x ≠ '\n' ∧ x ≠ '\r' := by
  cases escape with
  | @letter x c letter =>
    refine ⟨x, [], rfl, Bool.eq_false_iff.mpr fun blank => ?_, ?_, ?_⟩
    · rcases (by simpa [isBlank] using blank : x = ' ' ∨ x = '\t') with rfl | rfl <;> cases letter
    · rintro rfl
      cases letter
    · rintro rfl
      cases letter
  | short => exact ⟨_, _, rfl, rfl, by decide, by decide⟩
  | long => exact ⟨_, _, rfl, rfl, by decide, by decide⟩

theorem fails_escaped (other : s.head? ≠ some '\\') : Fails escaped s := (fails_char other).bind

/-! ## Strings on one line -/

theorem IsBasicText.pieces (text : IsBasicText s t) (r : List Char) :
    Pieces isBasic (List.singleton <$> escaped) ('"' :: r) s t := by
  induction text with
  | nil => exact .nil (fun c head => by cases head; rfl) (fails_escaped (by simp)).map
  | plain plain _ ih => exact .plain plain ih
  | escape escape _ ih =>
    obtain ⟨x, e', rfl, -⟩ := escape.first
    exact .other (by simp) (fun c head => by cases head; rfl) (escape.reads _).map ih

theorem IsBasicString.reads (string : IsBasicString s t) (r : List Char) :
    Reads basicString s (.ofList t) r := by
  obtain ⟨text⟩ := string
  obtain ⟨ts, read, same⟩ := (text.pieces r).reads
  have closing : Reads (do let _ ← char '"'; return joined ts) ['"'] (joined ts) r :=
    (reads_char '"' r).bind_pure
  rw [← same]
  exact Reads.bind (s := ['"']) (reads_char _ _) (Reads.bind read closing)

theorem fails_basicString (other : s.head? ≠ some '"') : Fails basicString s := (fails_char other).bind

theorem IsLiteralString.reads (string : IsLiteralString s t) (r : List Char) :
    Reads literalString s (.ofList t) r := by
  obtain ⟨text⟩ := string
  have inner : Reads (run isLiteral) _ _ (['\x27'] ++ r) :=
    reads_run text fun c head => by cases head; rfl
  exact Reads.bind (s := ['\x27']) (reads_char _ _) (Reads.bind inner (reads_char '\x27' r).bind_pure)

theorem fails_literalString (other : s.head? ≠ some '\x27') : Fails literalString s := (fails_char other).bind

/-! ## Strings of several lines -/

/-- What stands for itself or for nothing in a string of several lines, apart from runs of characters. -/
def blockOther (q : Char) (escaping : Bool) : Reader (List Char) :=
  let plain := (do newline; return ['\n']) <|> innerQuotes q
  if escaping then (continuation <|> List.singleton <$> escaped) <|> plain else plain

/-- The class of a string of several lines tells characters apart from what is read otherwise. -/
structure Apart (q : Char) (class_ : Char → Bool) (escaping : Bool) : Prop where
  quote : class_ q = false
  spaced : class_ '\n' = false ∧ class_ '\r' = false
  backslash : escaping → class_ '\\' = false
  solid : isBlank q = false ∧ q ≠ '\n' ∧ q ≠ '\r'
  unescaped : q ≠ '\\'

theorem fails_continuation (other : s.head? ≠ some '\\') : Fails continuation s :=
  (fails_word fun ⟨_, same⟩ => other (by simp [← same])).bind

theorem blockOther_plain {q : Char} {escaping : Bool} (other : (s ++ r).head? ≠ some '\\')
    (read : Reads ((do newline; return ['\n']) <|> innerQuotes q) s t r) : Reads (blockOther q escaping) s t r := by
  cases escaping with
  | false => exact read
  | true => exact ((fails_continuation other).orElse_fails (fails_escaped other).map).orElse read

theorem blockOther_newline {q : Char} {escaping : Bool} (newline : IsNewline n) (r : List Char) :
    Reads (blockOther q escaping) n ['\n'] r := by
  refine blockOther_plain (fun head => ?_) (newline.reads r).bind_pure.orElse
  obtain ⟨c, first, rfl | rfl⟩ := newline.first r <;> cases first.symm.trans head

/-- A quote or two with something else behind them. -/
theorem reads_innerQuotes {q : Char} {k : Nat} (few : k = 1 ∨ k = 2) (full : r ≠ [])
    (other : r.head? ≠ some q) : Reads (innerQuotes q) (List.replicate k q) (List.replicate k q) r := by
  obtain ⟨c, r, rfl⟩ := List.exists_cons_of_ne_nil full
  have apart : c ≠ q := fun same => other (congrArg some same)
  have seen : Reads (ahead (satisfy (· ≠ q))) [] c (c :: r) := (reads_satisfy (by simpa using apart) r).ahead
  rcases few with rfl | rfl
  · have no_two : Fails (do word [q, q]; let _ ← ahead (satisfy (· ≠ q)); return [q, q]) (q :: c :: r) :=
      (fails_word (by simp [apart.symm])).bind
    have one : Reads (do word [q]; let _ ← ahead (satisfy (· ≠ q)); return [q]) [q] [q] (c :: r) :=
      Reads.bind (reads_word [q] _) seen.bind_pure
    exact no_two.orElse one
  · have two : Reads (do word [q, q]; let _ ← ahead (satisfy (· ≠ q)); return [q, q]) [q, q] [q, q] (c :: r) :=
      Reads.bind (reads_word [q, q] _) seen.bind_pure
    exact two.orElse

/-- Three quotes are not within a string. -/
theorem fails_innerQuotes (q : Char) (r : List Char) : Fails (innerQuotes q) (q :: q :: q :: r) := by
  have seen (s : List Char) : Fails (ahead (satisfy (· ≠ q))) (q :: s) :=
    (fails_satisfy fun c head => by cases head; simp).ahead
  exact ((reads_word [q, q] _).bind_fails (seen r).bind).orElse_fails
    ((reads_word [q] _).bind_fails (seen (q :: r)).bind)

/-- The last three of the quotes at the end close the string. -/
theorem reads_closingQuotes {q : Char} {k : Nat} (few : k ≤ 2) (other : r.head? ≠ some q) :
    Reads (closingQuotes q) (List.replicate k q ++ [q, q, q]) (List.replicate k q) r := by
  have short (j : Nat) (fewer : j < 3) : ¬[q, q, q] <+: List.replicate j q ++ r := by
    rintro ⟨u, same⟩
    have at_j := congrArg (·[j]?) same
    simp only [List.getElem?_append_right, List.length_replicate, Nat.le_refl, Nat.sub_self] at at_j
    rw [List.getElem?_append_left (by simpa using fewer)] at at_j
    exact other (by rw [List.head?_eq_getElem?, ← at_j]; match j, fewer with | 0, _ | 1, _ | 2, _ => rfl)
  have no_fence (j : Nat) (fewer : j < 3) : Fails (ahead (word [q, q, q])) (List.replicate j q ++ r) :=
    (fails_word (short j fewer)).ahead
  have fence : Reads (ahead (word [q, q, q])) [] () ([q, q, q] ++ r) := (reads_word [q, q, q] r).ahead
  have no_two (j : Nat) (fewer : j < 3) : Fails (do word [q, q]; ahead (word [q, q, q]); return [q, q])
      ([q, q] ++ (List.replicate j q ++ r)) :=
    (reads_word [q, q] _).bind_fails (no_fence j fewer).bind
  have no_one : Fails (do word [q]; ahead (word [q, q, q]); return [q]) ([q] ++ (List.replicate 2 q ++ r)) :=
    (reads_word [q] _).bind_fails (no_fence 2 (by omega)).bind
  have extra : Reads ((do word [q, q]; ahead (word [q, q, q]); return [q, q]) <|>
      (do word [q]; ahead (word [q, q, q]); return [q]) <|> pure []) (List.replicate k q) (List.replicate k q)
      ([q, q, q] ++ r) := by
    match k, few with
    | 0, _ =>
      refine Fails.orElse ?_ (Fails.orElse ?_ (.pure _ _))
      · exact no_two 1 (by omega)
      · exact no_one
    | 1, _ =>
      have one : Reads (do word [q]; ahead (word [q, q, q]); return [q]) [q] [q] ([q, q, q] ++ r) :=
        Reads.bind (reads_word [q] _) fence.bind_pure
      refine Fails.orElse ?_ one.orElse
      exact no_two 2 (by omega)
    | 2, _ =>
      have two : Reads (do word [q, q]; ahead (word [q, q, q]); return [q, q]) [q, q] [q, q] ([q, q, q] ++ r) :=
        Reads.bind (reads_word [q, q] _) fence.bind_pure
      exact two.orElse
  exact Reads.bind extra (reads_word [q, q, q] r).bind_pure

theorem IsSkip.pieces {w : List Char} (skip : IsSkip w) (stops : Unspaced r) :
    ∃ t, Pieces isBlank (do Toml.newline; return []) r w t := by
  induction skip with
  | nil =>
    have no_end : Fails Toml.newline r := fails_newline fun c head => (stops c head).2
    exact ⟨[], .nil (fun c head => by simpa using (stops c head).1) no_end.bind⟩
  | blank blank _ ih =>
    obtain ⟨t, rest⟩ := ih
    exact ⟨_, .plain blank rest⟩
  | newline newline _ ih =>
    obtain ⟨t, rest⟩ := ih
    refine ⟨_, .other (by cases newline <;> simp) (fun c head => ?_) (newline.reads _).bind_pure rest⟩
    cases newline <;> cases head <;> rfl

/-- Blanks and ends of lines are left out as far as they go. -/
theorem IsSkip.reads {w : List Char} (skip : IsSkip w) (stops : Unspaced r) :
    ∃ us, Reads (many ((do let _ ← run1 isBlank) <|> Toml.newline)) w us r := by
  obtain ⟨t, pieces⟩ := skip.pieces stops
  obtain ⟨ts, read, -⟩ := pieces.reads
  have forgotten : ((do let _ ← run1 isBlank) <|> Toml.newline) =
      (fun _ => ()) <$> (run1 isBlank <|> (do Toml.newline; return [])) := by
    funext s
    show ((run1 isBlank s).bind (fun x => some ((), x.2)) <|> Toml.newline s) =
      (run1 isBlank s <|> (Toml.newline s).bind fun x => some ([], x.2)).bind fun x => some ((), x.2)
    cases run1 isBlank s <;> cases Toml.newline s <;> rfl
  rw [forgotten]
  exact ⟨_, read.many_map⟩

/-- An escaped end of line, and what is left out with it. -/
theorem reads_continuation {w : List Char} (blanks : Blanks b) (newline : IsNewline n) (skip : IsSkip w)
    (stops : Unspaced r) : Reads continuation ('\\' :: (b ++ (n ++ w))) [] r := by
  obtain ⟨us, left_out⟩ := skip.reads stops
  have no_blank : ∀ c ∈ (n ++ w ++ r).head?, isBlank c = false := fun c head => by
    obtain ⟨d, first, ended⟩ := newline.first (w ++ r)
    rw [List.append_assoc, first] at head
    rcases ended with rfl | rfl <;> cases head <;> rfl
  exact Reads.bind (reads_word ['\\'] _) (Reads.bind (blanks.reads no_blank)
    (Reads.bind (newline.reads _) left_out.bind_pure))

theorem blockOther_quotes {q : Char} {class_ : Char → Bool} {escaping : Bool} {k : Nat}
    (apart : Apart q class_ escaping) (few : k = 1 ∨ k = 2) (full : r ≠ []) (other : r.head? ≠ some q) :
    Reads (blockOther q escaping) (List.replicate k q) (List.replicate k q) r := by
  have first : (List.replicate k q ++ r).head? = some q := by rcases few with rfl | rfl <;> rfl
  have no_end : Fails newline (List.replicate k q ++ r) := fails_newline fun c head => by
    obtain rfl := Option.some.inj (first.symm.trans head)
    exact apart.solid.2
  refine blockOther_plain (fun head => ?_) (no_end.bind.orElse (reads_innerQuotes few full other))
  exact apart.unescaped (Option.some.inj (first.symm.trans head))

theorem blockOther_escape {q : Char} {e : List Char} {c : Char} (escape : IsEscape e c) (r : List Char) :
    Reads (blockOther q true) e [c] r := by
  have no_end : Fails continuation (e ++ r) := by
    obtain ⟨x, e', rfl, no_blank, no_feed, no_return⟩ := escape.first
    have after : Reads Toml.blanks [] () (x :: (e' ++ r)) :=
      blanks_nil.reads fun c head => by cases head; exact no_blank
    have unended : Fails newline (x :: (e' ++ r)) :=
      fails_newline fun c head => by cases head; exact ⟨no_feed, no_return⟩
    exact (reads_word ['\\'] _).bind_fails (after.bind_fails unended.bind)
  exact (no_end.orElse (escape.reads r).map).orElse

theorem blockOther_continuation {q : Char} {w : List Char} (blanks : Blanks b) (newline : IsNewline n)
    (skip : IsSkip w) (stops : Unspaced r) : Reads (blockOther q true) ('\\' :: (b ++ (n ++ w))) [] r :=
  (reads_continuation blanks newline skip stops).orElse.orElse

/-- Three quotes end the text. -/
theorem fails_blockOther {q : Char} {class_ : Char → Bool} {escaping : Bool} (apart : Apart q class_ escaping)
    (r : List Char) : Fails (blockOther q escaping) (q :: q :: q :: r) := by
  have no_end : Fails newline (q :: q :: q :: r) :=
    fails_newline fun c head => by cases head; exact apart.solid.2
  have no_escape : (q :: q :: q :: r).head? ≠ some '\\' := fun head => apart.unescaped (Option.some.inj head)
  have no_plain : Fails ((do newline; return ['\n']) <|> innerQuotes q) (q :: q :: q :: r) :=
    no_end.bind.orElse_fails (fails_innerQuotes q r)
  cases escaping with
  | false => exact no_plain
  | true => exact ((fails_continuation no_escape).orElse_fails (fails_escaped no_escape).map).orElse_fails no_plain

theorem IsBlockText.pieces {q : Char} {class_ : Char → Bool} {escaping : Bool}
    (text : IsBlockText q class_ escaping s t) (apart : Apart q class_ escaping) (r : List Char) :
    Pieces class_ (blockOther q escaping) (q :: q :: q :: r) s t := by
  induction text with
  | nil => exact .nil (fun c head => by cases head; exact apart.quote) (fails_blockOther apart r)
  | plain plain _ ih => exact .plain plain ih
  | @wrap n s t newline _ ih =>
    refine .other (by cases newline <;> simp) (fun c head => ?_) (blockOther_newline newline _) ih
    cases newline with
    | feed => cases head; exact apart.spaced.1
    | return_ => cases head; exact apart.spaced.2
  | @quotes k s t few full other _ ih =>
    obtain ⟨c, s, rfl⟩ := List.exists_cons_of_ne_nil full
    refine .other (by rcases few with rfl | rfl <;> simp) (fun c head => ?_)
      (blockOther_quotes apart few (by simp) other) ih
    rcases few with rfl | rfl <;> cases head <;> exact apart.quote
  | @escape e c s t allowed escape _ ih =>
    subst allowed
    obtain ⟨x, e', rfl, -⟩ := escape.first
    exact .other (by simp) (fun c head => by cases head; exact apart.backslash rfl) (blockOther_escape escape _) ih
  | @continuation b n w s t allowed blanks newline skip stops _ ih =>
    subst allowed
    have unspaced : Unspaced (s ++ q :: q :: q :: r) := fun c head => by
      cases s with
      | nil => cases head; simpa using apart.solid
      | cons c' s => exact stops c head
    have read : Reads (blockOther q true) ('\\' :: (b ++ (n ++ w))) [] (s ++ q :: q :: q :: r) :=
      blockOther_continuation blanks newline skip unspaced
    have parts := Pieces.other (by simp) (fun c head => by cases head; exact apart.backslash rfl) read ih
    simpa using parts

/-- What stands between the opening quotes and the end. -/
theorem IsBlockText.reads {q : Char} {class_ : Char → Bool} {escaping : Bool} {k : Nat}
    (text : IsBlockText q class_ escaping s t) (apart : Apart q class_ escaping) (few : k ≤ 2)
    (other : r.head? ≠ some q) :
    Reads (do
      let pieces ← many (run1 class_ <|> blockOther q escaping)
      let extra ← closingQuotes q
      return joined (pieces ++ [extra])) (s ++ (List.replicate k q ++ [q, q, q]))
      (.ofList (t ++ List.replicate k q)) r := by
  have closing : ∃ r', List.replicate k q ++ [q, q, q] ++ r = q :: q :: q :: r' := by
    match k, few with
    | 0, _ | 1, _ | 2, _ => exact ⟨_, rfl⟩
  obtain ⟨r', closing⟩ := closing
  obtain ⟨ts, read, same⟩ := (text.pieces apart r').reads
  have whole : String.ofList (t ++ List.replicate k q) = joined (ts ++ [List.replicate k q]) := by
    rw [joined, List.flatten_append, same, List.flatten_singleton]
  rw [← closing] at read
  rw [whole]
  exact Reads.bind read (reads_closingQuotes few other).bind_pure

theorem IsBlock.reads {q : Char} {class_ : Char → Bool} {escaping : Bool} {piece : Reader (List Char)}
    (block : IsBlock q class_ escaping s t) (apart : Apart q class_ escaping)
    (pieces : (piece <|> (do newline; return ['\n']) <|> innerQuotes q) = (run1 class_ <|> blockOther q escaping))
    (other : r.head? ≠ some q) : Reads (blockString q piece) s (.ofList t) r := by
  unfold blockString
  rw [pieces]
  cases block with
  | @plain s t k unspaced few text =>
    have no_newline : Fails newline (s ++ (List.replicate k q ++ [q, q, q]) ++ r) := by
      refine fails_newline fun c head => ?_
      cases s with
      | cons d s => exact unspaced c head
      | nil =>
        have first : ([] ++ (List.replicate k q ++ [q, q, q]) ++ r).head? = some q := by
          match k, few with
          | 0, _ | 1, _ | 2, _ => rfl
        exact Option.some.inj (first.symm.trans head) ▸ apart.solid.2
    exact Reads.bind (reads_word _ _) (Reads.bind (s := []) no_newline.optional (text.reads apart few other))
  | wrapped newline few text =>
    exact Reads.bind (reads_word _ _) (Reads.bind (newline.reads _).optional (text.reads apart few other))

theorem apart_basic : Apart '"' isBasic true := by constructor <;> decide

theorem apart_literal : Apart '\x27' isLiteral false := by constructor <;> decide

/-! ## Strings -/

/-- A string on one line is not the start of one of several lines. -/
theorem fails_blockString {q : Char} {piece : Reader (List Char)} (inner : ∀ c ∈ s.head?, c ≠ q)
    (other : r.head? ≠ some q) : Fails (blockString q piece) (q :: (s ++ [q]) ++ r) := by
  refine (fails_word fun ⟨u, same⟩ => ?_).bind
  cases s with
  | nil =>
    obtain rfl : q :: u = r := by simpa using same
    exact other rfl
  | cons c s =>
    obtain ⟨rfl, -⟩ : q = c ∧ q :: u = s ++ q :: r := by simpa using same
    exact inner q rfl rfl

theorem fails_blockString_head {q : Char} {piece : Reader (List Char)} (other : s.head? ≠ some q) :
    Fails (blockString q piece) s :=
  (fails_word fun ⟨_, same⟩ => other (by simp [← same])).bind

theorem IsBlock.first {q : Char} {class_ : Char → Bool} {escaping : Bool} (block : IsBlock q class_ escaping s t)
    (r : List Char) : (s ++ r).head? = some q := by
  cases block <;> rfl

theorem IsBasicText.first (text : IsBasicText s t) : ∀ c ∈ s.head?, c ≠ '"' := by
  intro c head
  cases text with
  | nil => cases head
  | plain plain _ =>
    cases head
    rintro rfl
    cases plain
  | escape escape _ =>
    obtain ⟨x, e', rfl, -⟩ := escape.first
    cases head
    decide

/-- A string is read if no quote is behind it. -/
theorem IsString.reads (string : IsString s t) (unquoted : ∀ c ∈ r.head?, c ≠ '"' ∧ c ≠ '\x27') :
    Reads Toml.string s (.ofList t) r := by
  have no_quote : r.head? ≠ some '"' := fun head => (unquoted _ head).1 rfl
  have no_mark : r.head? ≠ some '\x27' := fun head => (unquoted _ head).2 rfl
  cases string with
  | basicBlock block =>
    refine (block.reads apart_basic ?_ no_quote).orElse
    simp only [blockOther, if_true, orElse_assoc]
  | basic string =>
    have no_block : Fails (blockString '"' (run1 isBasic <|> continuation <|> List.singleton <$> escaped))
        (s ++ r) := by
      obtain ⟨text⟩ := string
      exact fails_blockString text.first no_quote
    exact no_block.orElse (string.reads r).orElse
  | literal string =>
    have first : (s ++ r).head? = some '\x27' := by
      obtain ⟨_⟩ := string
      rfl
    have no_basic : (s ++ r).head? ≠ some '"' := by simp [first]
    have no_block : Fails (blockString '\x27' (run1 isLiteral)) (s ++ r) := by
      obtain ⟨text⟩ := string
      refine fails_blockString (fun c head => ?_) no_mark
      have plain := text c (List.mem_of_mem_head? head)
      rintro rfl
      cases plain
    exact (fails_blockString_head no_basic).orElse
      ((fails_basicString no_basic).orElse (no_block.orElse (string.reads r)))
  | literalBlock block =>
    have no_basic : (s ++ r).head? ≠ some '"' := by simp [block.first]
    refine (fails_blockString_head no_basic).orElse ((fails_basicString no_basic).orElse (Reads.orElse ?_))
    exact block.reads apart_literal rfl no_mark

/-! ## Keys -/

theorem IsKey.reads {k : List Char} {key : String} (isKey : IsKey k key)
    (ends : ∀ c ∈ r.head?, isBare c = false) : Reads simpleKey k key r := by
  cases isKey with
  | basic string => exact (string.reads r).orElse
  | literal string =>
    have no_basic : Fails basicString (k ++ r) := by
      obtain ⟨_⟩ := string
      exact fails_basicString (by simp)
    exact no_basic.orElse (string.reads r).orElse
  | bare full bare =>
    obtain ⟨c, k, rfl⟩ := List.exists_cons_of_ne_nil full
    have first := bare c (.head _)
    have no_basic : Fails basicString (c :: k ++ r) := fails_basicString fun head => by
      cases head
      cases first
    have no_literal : Fails literalString (c :: k ++ r) := fails_literalString fun head => by
      cases head
      cases first
    exact no_basic.orElse (no_literal.orElse (reads_run1 full bare ends).map)

/-- A character that a key starts with. -/
def OpensKey (c : Char) : Prop := c = '"' ∨ c = '\x27' ∨ isBare c

theorem IsKey.first {k : List Char} {key : String} (isKey : IsKey k key) : ∃ c k', k = c :: k' ∧ OpensKey c := by
  cases isKey with
  | basic string =>
    obtain ⟨_⟩ := string
    exact ⟨_, _, rfl, .inl rfl⟩
  | literal string =>
    obtain ⟨_⟩ := string
    exact ⟨_, _, rfl, .inr (.inl rfl)⟩
  | bare full bare =>
    obtain ⟨c, k, rfl⟩ := List.exists_cons_of_ne_nil full
    exact ⟨_, _, rfl, .inr (.inr (bare c (.head _)))⟩

theorem OpensKey.ne {c d : Char} (opens : OpensKey c) (other : ¬OpensKey d) : c ≠ d :=
  fun same => other (same ▸ opens)

instance (c : Char) : Decidable (OpensKey c) := inferInstanceAs (Decidable (_ ∨ _ ∨ _))

theorem OpensKey.solid {c : Char} (opens : OpensKey c) : isBlank c = false := by
  rw [isBlank, decide_eq_false (opens.ne (by decide)), decide_eq_false (opens.ne (by decide))]
  rfl

theorem fails_simpleKey (other : ∀ c ∈ s.head?, ¬OpensKey c) : Fails simpleKey s := by
  have no_bare : ∀ c ∈ s.head?, isBare c = false := fun c head =>
    Bool.eq_false_iff.mpr fun bare => other c head (.inr (.inr bare))
  exact (fails_basicString fun head => other _ head (.inl rfl)).orElse_fails
    ((fails_literalString fun head => other _ head (.inr (.inl rfl))).orElse_fails (fails_run1 no_bare).map)

/-- What stands behind a key of a dotted one. -/
def EndsKey (r : List Char) : Prop := ∀ c ∈ r.head?, c = '.' ∨ c = '=' ∨ c = ']'

theorem IsPart.reads {key : String} (part : IsPart s key) (ends : EndsKey r) :
    Reads (do blanks; let k ← simpleKey; blanks; return k) s key r := by
  obtain @⟨b, k, key, b', before, isKey, after⟩ := part
  obtain ⟨c, k', first, opens⟩ := isKey.first
  have no_blank : ∀ c ∈ r.head?, isBlank c = false := fun c head => by
    rcases ends c head with rfl | rfl | rfl <;> rfl
  have no_bare : ∀ c ∈ (b' ++ r).head?, isBare c = false := fun c head => by
    cases b' with
    | nil => rcases ends c head with rfl | rfl | rfl <;> rfl
    | cons d b' =>
      obtain rfl := Option.some.inj head
      rcases (by simpa [isBlank] using after d (.head _) : d = ' ' ∨ d = '\t') with rfl | rfl <;> rfl
  have at_key : ∀ c ∈ (k ++ b' ++ r).head?, isBlank c = false := fun d head => by
    subst first
    cases head
    exact opens.solid
  exact Reads.bind (before.reads at_key) (Reads.bind (isKey.reads no_bare) (after.reads no_blank).bind_pure)

theorem fails_part (blanks : Blanks b) (other : ∀ c ∈ r.head?, isBlank c = false ∧ ¬OpensKey c) :
    Fails (do Toml.blanks; let k ← simpleKey; Toml.blanks; return k) (b ++ r) :=
  (blanks.reads fun c head => (other c head).1).bind_fails (fails_simpleKey fun c head => (other c head).2).bind

/-- A dotted key is read where its value or the end of its header follows. -/
theorem IsDottedKey.reads {path : List String} {key : String} (isKey : IsDottedKey s path key)
    (ends : ∀ c ∈ r.head?, c = '=' ∨ c = ']') : Reads dottedKey s (path, key) r := by
  obtain ⟨parts, short⟩ := isKey
  have no_point : r.head? ≠ some '.' := fun head => by
    rcases ends _ head with same | same <;> cases same
  have one (s : List Char) (key : String) (r : List Char) (part : IsPart s key) (ends : EndsKey r) :
      Reads (do blanks; let k ← simpleKey; blanks; return k) s key r := part.reads ends
  have read := parts.reads one (fun t c head => by cases head; exact .inl rfl)
    (fun c head => .inr (ends c head)) (fails_char no_point).bind
  refine read.filterMap ?_
  have few : (path ++ [key]).length ≤ deepest := by
    rw [List.length_append]
    exact short
  rw [if_pos few]
  simp

end TierTagger.Toml
