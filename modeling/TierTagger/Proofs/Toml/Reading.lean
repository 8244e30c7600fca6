import TierTagger.Toml.Reader
import Mathlib.Data.List.Basic

/-!
# Laws of readers

What a reader makes of the text in front of it, given what follows.

* `Reads p s a r`: where `r` follows, `p` reads `s` as `a`. Texts are read one after the other.
* `Fails p s`: `p` does not read from `s`. Only then the next alternative is tried.
* `Pieces`, `Pieces.reads`: a text in which characters of a class go in runs may be read one by one.
-/

namespace TierTagger.Toml.Reader

variable {α β γ : Type} {p p' : Reader α} {q : Reader β} {s t r : List Char} {a : α} {b : β}

/-- Where `r` follows, the reader reads `s` as `a`. -/
def Reads (p : Reader α) (s : List Char) (a : α) (r : List Char) : Prop := p (s ++ r) = some (a, r)

/-- The reader does not read from the text. -/
def Fails (p : Reader α) (s : List Char) : Prop := p s = none

/-! ## One after the other -/

theorem Reads.pure (a : α) (r : List Char) : Reads (pure a) [] a r := rfl

theorem Reads.bind {f : α → Reader β} (first : Reads p s a (t ++ r)) (next : Reads (f a) t b r) :
    Reads (p >>= f) (s ++ t) b r := by
  have step : (p >>= f) (s ++ (t ++ r)) = (p (s ++ (t ++ r))).bind fun x => f x.1 x.2 := rfl
  rw [Reads, List.append_assoc, step, first]
  exact next

theorem Reads.map {f : α → β} (read : Reads p s a r) : Reads (f <$> p) s (f a) r := by
  have step : (f <$> p) (s ++ r) = (p (s ++ r)).bind fun x => some (f x.1, x.2) := rfl
  rw [Reads, step, read]
  rfl

/-- Nothing more is read. -/
theorem Reads.bind_nil {f : α → Reader β} (first : Reads p s a r) (next : Reads (f a) [] b r) :
    Reads (p >>= f) s b r := by
  have both := Reads.bind first next
  rwa [List.append_nil] at both

/-- What is read is handed back in another form. -/
theorem Reads.bind_pure {f : α → β} (read : Reads p s a r) : Reads (do return f (← p)) s (f a) r :=
  read.bind_nil (.pure (f a) r)

theorem Fails.bind {f : α → Reader β} (fails : Fails p s) : Fails (p >>= f) s := by
  have step : (p >>= f) s = (p s).bind fun x => f x.1 x.2 := rfl
  rw [Fails, step, fails]
  rfl

theorem Fails.map {f : α → β} (fails : Fails p s) : Fails (f <$> p) s := by
  have step : (f <$> p) s = (p s).bind fun x => some (f x.1, x.2) := rfl
  rw [Fails, step, fails]
  rfl

theorem Reads.bind_fails {f : α → Reader β} (first : Reads p s a r) (fails : Fails (f a) r) :
    Fails (p >>= f) (s ++ r) := by
  have step : (p >>= f) (s ++ r) = (p (s ++ r)).bind fun x => f x.1 x.2 := rfl
  rw [Fails, step, first]
  exact fails

theorem exists_bind {f : α → Reader β} (read : (p >>= f) s = some (b, r)) :
    ∃ a t, p s = some (a, t) ∧ f a t = some (b, r) := by
  have step : (p >>= f) s = (p s).bind fun x => f x.1 x.2 := rfl
  obtain ⟨⟨a, t⟩, first, next⟩ := Option.bind_eq_some_iff.mp (step ▸ read)
  exact ⟨a, t, first, next⟩

/-! ## Alternatives -/

theorem Reads.orElse (read : Reads p s a r) : Reads (p <|> p') s a r := by
  have step : (p <|> p') (s ++ r) = (p (s ++ r) <|> p' (s ++ r)) := rfl
  rw [Reads, step, read]
  rfl

theorem Fails.orElse (fails : Fails p (s ++ r)) (read : Reads p' s a r) : Reads (p <|> p') s a r := by
  have step : (p <|> p') (s ++ r) = (p (s ++ r) <|> p' (s ++ r)) := rfl
  rw [Reads, step, fails, read]
  rfl

theorem Fails.orElse_fails (fails : Fails p s) (fails' : Fails p' s) : Fails (p <|> p') s := by
  have step : (p <|> p') s = (p s <|> p' s) := rfl
  rw [Fails, step, fails, fails']
  rfl

theorem orElse_assoc (p p' p'' : Reader α) : ((p <|> p') <|> p'') = (p <|> (p' <|> p'')) := by
  funext s
  have left : ((p <|> p') <|> p'') s = ((p s <|> p' s) <|> p'' s) := rfl
  have right : (p <|> (p' <|> p'')) s = (p s <|> (p' s <|> p'' s)) := rfl
  rw [left, right]
  cases p s <;> rfl

theorem Reads.optional (read : Reads p s a r) : Reads (optional p) s (some a) r :=
  Reads.orElse (read.map)

theorem Fails.optional (fails : Fails p r) : Reads (optional p) [] none r :=
  Fails.orElse fails.map (.pure none r)

/-! ## Looking ahead -/

theorem Reads.ahead (read : Reads p s a r) : Reads (ahead p) [] a (s ++ r) := by
  have found : p (s ++ r) = some (a, r) := read
  rw [Reads, Reader.ahead, List.nil_append, found]
  rfl

theorem Fails.ahead (fails : Fails p s) : Fails (ahead p) s := by
  have nothing : p s = none := fails
  rw [Fails, Reader.ahead, nothing]
  rfl

/-! ## Characters -/

theorem reads_satisfy {c : Char} {class_ : Char → Bool} (holds : class_ c) (r : List Char) :
    Reads (satisfy class_) [c] c r := by
  simp [Reads, satisfy, holds]

theorem satisfy_split {class_ : Char → Bool} {c : Char} (read : satisfy class_ s = some (c, r)) :
    s = c :: r ∧ class_ c := by
  cases s with
  | nil => cases read
  | cons d s =>
    by_cases holds : class_ d
    · obtain ⟨rfl, rfl⟩ : d = c ∧ s = r := by simpa [satisfy, holds] using read
      exact ⟨rfl, holds⟩
    · simp [satisfy, holds] at read

theorem fails_satisfy {class_ : Char → Bool} (other : ∀ c ∈ s.head?, class_ c = false) :
    Fails (satisfy class_) s := by
  cases s with
  | nil => rfl
  | cons c s => simp [Fails, satisfy, other c rfl]

theorem reads_char (c : Char) (r : List Char) : Reads (char c) [c] c r := reads_satisfy (by simp) r

theorem fails_char {c : Char} (other : s.head? ≠ some c) : Fails (char c) s :=
  fails_satisfy fun _ head => decide_eq_false fun same => other (same ▸ head)

theorem reads_word (w r : List Char) : Reads (word w) w () r := by
  induction w with
  | nil => rfl
  | cons c w ih => exact Reads.bind (s := [c]) (reads_char c _) ih

theorem word_split {w : List Char} (read : word w s = some ((), r)) : s = w ++ r := by
  induction w generalizing s with
  | nil =>
    cases read
    rfl
  | cons c w ih =>
    obtain ⟨d, t, first, rest⟩ := exists_bind read
    obtain ⟨rfl, same⟩ := satisfy_split first
    rw [ih rest, of_decide_eq_true same, List.cons_append]

theorem fails_word {w : List Char} (other : ¬w <+: s) : Fails (word w) s := by
  cases found : word w s with
  | none => exact found
  | some x => exact absurd ⟨x.2, (word_split found).symm⟩ other

theorem reads_run {class_ : Char → Bool} (holds : ∀ c ∈ s, class_ c)
    (ends : ∀ c ∈ r.head?, class_ c = false) : Reads (run class_) s s r := by
  have taken : (s ++ r).takeWhile class_ = s := by
    rw [List.takeWhile_append_of_pos holds]
    cases r with
    | nil => simp
    | cons c r => simp [ends c rfl]
  have left : (s ++ r).dropWhile class_ = r := by
    rw [List.dropWhile_append_of_pos holds]
    cases r with
    | nil => rfl
    | cons c r => simp [ends c rfl]
  rw [Reads, run, taken, left]

theorem reads_run1 {class_ : Char → Bool} (full : s ≠ []) (holds : ∀ c ∈ s, class_ c)
    (ends : ∀ c ∈ r.head?, class_ c = false) : Reads (run1 class_) s s r := by
  obtain ⟨c, s, rfl⟩ := List.exists_cons_of_ne_nil full
  obtain ⟨first, holds⟩ := List.forall_mem_cons.mp holds
  exact Reads.bind (s := [c]) (reads_satisfy first _) (reads_run holds ends).bind_pure

theorem fails_run1 {class_ : Char → Bool} (other : ∀ c ∈ s.head?, class_ c = false) :
    Fails (run1 class_) s :=
  (fails_satisfy other).bind

theorem exactly_split {class_ : Char → Bool} {n : Nat} {ds : List Char}
    (read : exactly class_ n s = some (ds, r)) : s = ds ++ r ∧ ds.length = n ∧ ∀ d ∈ ds, class_ d := by
  induction n generalizing s ds with
  | zero =>
    cases read
    exact ⟨rfl, rfl, nofun⟩
  | succ n ih =>
    obtain ⟨c, t, first, rest⟩ := exists_bind read
    obtain ⟨ds, t', others, made⟩ := exists_bind rest
    cases made
    obtain ⟨rfl, holds⟩ := satisfy_split first
    obtain ⟨rfl, long, all⟩ := ih others
    exact ⟨rfl, congrArg (· + 1) long, List.forall_mem_cons.mpr ⟨holds, all⟩⟩

theorem reads_exactly {class_ : Char → Bool} {n : Nat} (long : s.length = n) (holds : ∀ c ∈ s, class_ c)
    (r : List Char) : Reads (exactly class_ n) s s r := by
  induction n generalizing s with
  | zero =>
    obtain rfl := List.length_eq_zero_iff.mp long
    exact .pure _ r
  | succ n ih =>
    obtain ⟨c, s, rfl⟩ := List.exists_cons_of_length_eq_add_one long
    obtain ⟨first, holds⟩ := List.forall_mem_cons.mp holds
    exact Reads.bind (s := [c]) (reads_satisfy first _) (ih (Nat.succ.inj long) holds).bind_pure

/-! ## Conditions -/

theorem Reads.guarded {ok : α → Bool} (read : Reads p s a r) (holds : ok a) : Reads (guarded p ok) s a r := by
  refine read.bind_nil ?_
  rw [if_pos holds]
  exact .pure a r

theorem Fails.guarded {ok : α → Bool} (fails : Fails p s) : Fails (guarded p ok) s := fails.bind

theorem Reads.filterMap {f : α → Option β} (read : Reads p s a r) (made : f a = some b) :
    Reads (filterMap p f) s b r := by
  refine read.bind_nil ?_
  rw [made]
  exact .pure b r

theorem Fails.filterMap {f : α → Option β} (fails : Fails p s) : Fails (filterMap p f) s := fails.bind

/-! ## Repetition -/

theorem Fails.many (fails : Fails p r) : Reads (many p) [] [] r := by
  rw [Reads, Reader.many, List.nil_append, repeated, fails]

theorem Reads.many {as : List α} (full : s ≠ []) (first : Reads p s a (t ++ r))
    (rest : Reads (many p) t as r) : Reads (many p) (s ++ t) (a :: as) r := by
  have shorter : (t ++ r).length < (s ++ (t ++ r)).length := by
    have := List.length_pos_of_ne_nil full
    simp only [List.length_append]
    omega
  have rest : repeated p (t ++ r) = (as, r) := Option.some.inj rest
  rw [Reads, Reader.many, List.append_assoc, repeated, first]
  simp only [dif_pos shorter, rest]

/-- What is read may be handed back in another form each time or all at once. -/
theorem Reads.many_map {f : α → β} {as : List α} (read : Reads (Reader.many p) s as r) :
    Reads (Reader.many (f <$> p)) s (as.map f) r := by
  have step (s : List Char) : (f <$> p) s = (p s).map fun x => (f x.1, x.2) := by
    show (p s).bind _ = _
    cases p s <;> rfl
  have all (s : List Char) : repeated (f <$> p) s = ((repeated p s).1.map f, (repeated p s).2) := by
    fun_induction repeated p s with
    | case1 s fails =>
      rw [repeated, step, fails]
      rfl
    | case2 s a t read shorter as u rest ih =>
      rw [repeated, step, read]
      simp [shorter, ih, rest]
    | case3 s a t read longer =>
      rw [repeated, step, read]
      simp [longer]
  have found : repeated p (s ++ r) = (as, r) := Option.some.inj read
  rw [Reads, Reader.many, all, found]

/-- Items with a separator between them, at least one. -/
inductive Separated (P : List Char → α → Prop) (sep : Char) : List Char → List α → Prop
  | one {s : List Char} {a : α} (item : P s a) : Separated P sep s [a]
  | more {s t : List Char} {a : α} {as : List α} (item : P s a) (rest : Separated P sep t as) :
    Separated P sep (s ++ sep :: t) (a :: as)

/-- Items are read one by one if each is read where the next one or the end follows. -/
theorem Separated.reads {P : List Char → α → Prop} {sep : Char} {Stops : List Char → Prop} {as : List α}
    (items : Separated P sep s as) (reads : ∀ s a r, P s a → Stops r → Reads p s a r)
    (between : ∀ t, Stops (sep :: t)) (stops : Stops r) (ends : Fails (do let _ ← char sep; p) r) :
    Reads (separated p (char sep)) s as r := by
  have split : ∃ s' a t as', s = s' ++ t ∧ as = a :: as' ∧ P s' a ∧ Stops (t ++ r) ∧
      Reads (many (do let _ ← char sep; p)) t as' r := by
    induction items with
    | one item => exact ⟨_, _, [], [], (List.append_nil _).symm, rfl, item, stops, ends.many⟩
    | more item _ ih =>
      obtain ⟨s', a, t, as', rfl, rfl, next, stops, later⟩ := ih
      have first : Reads (do let _ ← char sep; p) (sep :: s') a (t ++ r) :=
        Reads.bind (s := [sep]) (reads_char sep _) (reads _ _ _ next stops)
      exact ⟨_, _, _, _, rfl, rfl, item, between _, Reads.many (by simp) first later⟩
  obtain ⟨s', a, t, as', rfl, rfl, item, stops, later⟩ := split
  exact Reads.bind (reads _ _ _ item stops) later.bind_pure

/-! ## Runs -/

/-- A text whose characters of a class go in runs, and what its parts stand for. -/
inductive Pieces (class_ : Char → Bool) (q : Reader (List Char)) (r : List Char) :
    List Char → List Char → Prop
  | nil (ends : ∀ c ∈ r.head?, class_ c = false) (fails : Fails q r) : Pieces class_ q r [] []
  | plain {c : Char} {s t : List Char} (holds : class_ c) (rest : Pieces class_ q r s t) :
    Pieces class_ q r (c :: s) (c :: t)
  | other {u v s t : List Char} (full : u ≠ []) (other : ∀ c ∈ u.head?, class_ c = false)
    (read : Reads q u v (s ++ r)) (rest : Pieces class_ q r s t) : Pieces class_ q r (u ++ s) (v ++ t)

theorem reads_front {class_ : Char → Bool} {q : Reader (List Char)} {front : List Char} {ts : List (List Char)}
    (all : ∀ c ∈ front, class_ c) (ends : ∀ c ∈ (s ++ r).head?, class_ c = false)
    (read : Reads (many (run1 class_ <|> q)) s ts r) :
    ∃ us, Reads (many (run1 class_ <|> q)) (front ++ s) us r ∧ us.flatten = front ++ ts.flatten := by
  by_cases empty : front = []
  · subst empty
    exact ⟨ts, read, rfl⟩
  · have first : Reads (run1 class_ <|> q) front front (s ++ r) := (reads_run1 empty all ends).orElse
    exact ⟨front :: ts, Reads.many empty first read, rfl⟩

/-- Runs may be read one character after the other. -/
theorem Pieces.reads {class_ : Char → Bool} {q : Reader (List Char)} (pieces : Pieces class_ q r s t) :
    ∃ ts, Reads (many (run1 class_ <|> q)) s ts r ∧ ts.flatten = t := by
  -- The run in front is not read before its end is known.
  have split : ∃ front s' ts, s = front ++ s' ∧ t = front ++ ts.flatten ∧ (∀ c ∈ front, class_ c) ∧
      (∀ c ∈ (s' ++ r).head?, class_ c = false) ∧ Reads (many (run1 class_ <|> q)) s' ts r := by
    induction pieces with
    | nil ends fails =>
      have stops : Fails (run1 class_ <|> q) r := (fails_run1 ends).orElse_fails fails
      exact ⟨[], [], [], rfl, rfl, nofun, ends, stops.many⟩
    | @plain c s t holds _ ih =>
      obtain ⟨front, s', ts, rfl, rfl, all, ends, read⟩ := ih
      exact ⟨c :: front, s', ts, rfl, rfl, List.forall_mem_cons.mpr ⟨holds, all⟩, ends, read⟩
    | @other u v s t full other read _ ih =>
      obtain ⟨front, s', ts, rfl, rfl, all, ends, later⟩ := ih
      obtain ⟨us, later, same⟩ := reads_front all ends later
      obtain ⟨c, u, rfl⟩ := List.exists_cons_of_ne_nil full
      have no_run : Fails (run1 class_) (c :: u ++ (front ++ s' ++ r)) := fails_run1 other
      have first : Reads (run1 class_ <|> q) (c :: u) v (front ++ s' ++ r) := no_run.orElse read
      exact ⟨[], c :: u ++ (front ++ s'), v :: us, rfl, by rw [List.flatten_cons, same]; rfl, nofun, other,
        Reads.many full first later⟩
  obtain ⟨front, s', ts, rfl, rfl, all, ends, read⟩ := split
  exact reads_front all ends read

end TierTagger.Toml.Reader
