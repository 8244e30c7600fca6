import Mathlib.Data.List.TakeWhile
import TierTagger.Proofs.Text.Lossy
import TierTagger.Proofs.Url.Percent
import TierTagger.Url.Parse

/-!
# The authority at the start of a text

What is read of a URL of a special scheme behind its slashes, with more text behind it.

- `readAuthority`: the authority and what follows it, of which a URL has path, query and fragment.
- `afterSlashes_append`: a text behind the end of the authority changes nothing in it.
- `afterSlashes_blanks`: no authority ends with a blank.
-/

namespace TierTagger.Url

/-! ## Ends -/

section
variable {c : Char}

theorem isSlash_iff : isSlash true c = true ↔ c = '/' ∨ c = '\\' := by
  simp [isSlash]

theorem isPathEnd_iff : isPathEnd c = true ↔ c = '?' ∨ c = '#' := by
  simp [isPathEnd]

theorem isAuthorityEnd_iff : isAuthorityEnd true c = true ↔ (c = '/' ∨ c = '\\') ∨ c = '?' ∨ c = '#' := by
  rw [isAuthorityEnd, Bool.or_eq_true, isSlash_iff, isPathEnd_iff]

end

/-! ## Reading the authority -/

/-- Reads an authority and takes what follows it. -/
def readAuthority (scheme : String) (s : List Char) : Except Error (Authority × List Char) := do
  let special := isSpecial scheme
  let cut := cutUserinfo special s
  let (before, s) := cut.getD ([], s)
  if cut.isSome ∧ before = [] ∧ (s.head?.map (isAuthorityEnd special)).getD false then
    .error .emptyHost
  let (username, password) := userinfo before
  let (h, rest) ← host scheme s
  let (p, rest) ← port scheme rest
  if h = .domain "" ∧ ¬(username = "" ∧ password = "") then .error .emptyHost
  else return (⟨username, password, h, p⟩, rest)

theorem afterSlashes_eq (scheme : String) (s : List Char) : afterSlashes scheme s =
    (readAuthority scheme s).map fun (a, rest) =>
      withRest scheme (some a) (pathAfterHost (isSpecial scheme) rest) rest := by
  unfold afterSlashes readAuthority
  extract_lets special cut
  generalize cut.getD ([], s) = c
  obtain ⟨before, s⟩ := c
  generalize userinfo before = who
  obtain ⟨username, password⟩ := who
  simp only [bind, Except.bind, pure, Except.pure]
  split_ifs
  · rfl
  all_goals
    cases host scheme s with
    | error e => rfl
    | ok v =>
      simp only
      cases port scheme v.2 with
      | error e => rfl
      | ok w =>
        simp only
        split_ifs <;> rfl

/-! ## More text behind the authority -/

/-- A text in which no authority ends. -/
def Inside (s : List Char) : Prop := ∀ c ∈ s, isAuthorityEnd true c = false

/-- A text before which an authority ends. -/
def Outside (s : List Char) : Prop := ∀ c ∈ s.head?, isAuthorityEnd true c = true

instance (s : List Char) : Decidable (Outside s) :=
  decidable_of_iff (s.head?.all (isAuthorityEnd true) = true) (Option.all_eq_true _ _)

variable {scheme : String} {s t : List Char}

theorem outside_nil : Outside [] := nofun

theorem Outside.head_ne (outside : Outside t) {c : Char} (inside : isAuthorityEnd true c = false) :
    t.head? ≠ some c :=
  fun first => absurd (outside c first) (by simp [inside])

theorem takeWhile_inside (inside : Inside s) (outside : Outside t) :
    (s ++ t).takeWhile (!isAuthorityEnd true ·) = s := by
  rw [List.takeWhile_append_of_pos (by simpa [Inside] using inside)]
  cases t with
  | nil => simp
  | cons c t => simp [outside c rfl]

theorem Inside.takeWhile_eq (inside : Inside s) : s.takeWhile (!isAuthorityEnd true ·) = s := by
  simpa using takeWhile_inside inside outside_nil

/-- What comes before and after the last at sign. -/
theorem cutUserinfo_append (inside : Inside s) (outside : Outside t) :
    cutUserinfo true (s ++ t) = (cutUserinfo true s).map fun (before, rest) => (before, rest ++ t) := by
  unfold cutUserinfo
  simp only [takeWhile_inside inside outside, inside.takeWhile_eq]
  by_cases named : s.contains '@'
  · simp only [named, if_true, Option.map_some]
    rw [List.drop_append_of_le_length (Nat.sub_le _ _)]
  · simp only [named]
    rfl

theorem Inside.cut (inside : Inside s) : Inside ((cutUserinfo true s).getD ([], s)).2 := by
  unfold cutUserinfo
  extract_lets region
  split
  · exact fun c mem => inside c (List.mem_of_mem_drop mem)
  · exact inside

theorem hostText_append (inside : Inside s) (outside : Outside t) (bracket : Bool) :
    hostText true bracket (s ++ t) = ((hostText true bracket s).1, (hostText true bracket s).2 ++ t) := by
  induction s generalizing bracket with
  | nil =>
    cases t with
    | nil => rfl
    | cons c t => simp [hostText, outside c rfl]
  | cons c s ih =>
    have rest : Inside s := fun d mem => inside d (List.mem_cons_of_mem _ mem)
    rw [List.cons_append, hostText, hostText]
    split
    · rfl
    · rw [ih rest]

/-- A host is followed by a colon if anything of the authority is left. -/
theorem hostText_rest (inside : Inside s) (bracket : Bool) :
    s = (hostText true bracket s).1 ++ (hostText true bracket s).2 ∧
      ((hostText true bracket s).2 = [] ∨ ∃ r, (hostText true bracket s).2 = ':' :: r) := by
  induction s generalizing bracket with
  | nil => exact ⟨rfl, .inl rfl⟩
  | cons c s ih =>
    have rest : Inside s := fun d mem => inside d (List.mem_cons_of_mem _ mem)
    have plain : isAuthorityEnd true c = false := inside c List.mem_cons_self
    rw [hostText]
    by_cases colon : c = ':' ∧ bracket = false
    · obtain ⟨rfl, rfl⟩ := colon
      simp [plain]
    · rw [if_neg (by simpa [plain] using colon)]
      obtain ⟨whole, left⟩ := ih rest (if c = '[' then true else if c = ']' then false else bracket)
      exact ⟨congrArg (c :: ·) whole, left⟩

section
variable (special : isSpecial scheme = true)
include special

/-- The host of a URL of a special scheme. -/
theorem host_special (s : List Char) : host scheme s =
    if (hostText true false s).1 = [] then .error .emptyHost
    else (Host.ofName (hostText true false s).1).map fun h => (h, (hostText true false s).2) := by
  simp only [host, special, true_or, if_true, bind, Except.bind, pure, Except.pure]
  cases Host.ofName (hostText true false s).1 <;> rfl

theorem host_append (inside : Inside s) (outside : Outside t) :
    host scheme (s ++ t) = (host scheme s).map fun (h, rest) => (h, rest ++ t) := by
  simp only [host_special special, hostText_append inside outside]
  split_ifs
  · rfl
  · cases Host.ofName (hostText true false s).1 <;> rfl

/-- A host is the start of the text, and a colon follows it if anything does. -/
theorem host_eq_ok (inside : Inside s) {h : Host} {rest : List Char} (read : host scheme s = .ok (h, rest)) :
    ∃ text, s = text ++ rest ∧ Host.ofName text = .ok h ∧ (rest = [] ∨ ∃ r, rest = ':' :: r) := by
  obtain ⟨whole, left⟩ := hostText_rest inside false
  rw [host_special special] at read
  split_ifs at read
  cases name : Host.ofName (hostText true false s).1 with
  | error e =>
    rw [name] at read
    cases read
  | ok v =>
    rw [name] at read
    cases read
    exact ⟨_, whole, name, left⟩

theorem host_rest (inside : Inside s) {h : Host} {rest : List Char} (read : host scheme s = .ok (h, rest)) :
    Inside rest ∧ (rest = [] ∨ ∃ r, rest = ':' :: r) := by
  obtain ⟨text, rfl, -, behind⟩ := host_eq_ok special inside read
  exact ⟨fun c mem => inside c (List.mem_append_right _ mem), behind⟩

end

/-- No digit ends an authority. -/
theorem Outside.takeWhile_digit (outside : Outside t) :
    t.takeWhile Char.isDigit = [] ∧ t.dropWhile Char.isDigit = t := by
  cases t with
  | nil => exact ⟨rfl, rfl⟩
  | cons c t =>
    have other : c.isDigit = false := by
      rcases isAuthorityEnd_iff.mp (outside c rfl) with (rfl | rfl) | rfl | rfl <;> rfl
    simp [other]

theorem port_append (inside : Inside s) (outside : Outside t) (behind : s = [] ∨ ∃ r, s = ':' :: r) :
    port scheme (s ++ t) = (port scheme s).map fun (p, rest) => (p, rest ++ t) := by
  obtain ⟨no_digit, all⟩ := outside.takeWhile_digit
  rcases behind with rfl | ⟨r, rfl⟩
  · cases t with
    | nil => rfl
    | cons c t =>
      have other : c ≠ ':' := fun same => outside.head_ne (c := ':') (by decide) (by rw [same]; rfl)
      simp [port, other, Except.map]
  · have digits : (r ++ t).takeWhile Char.isDigit = r.takeWhile Char.isDigit := by
      rw [List.takeWhile_append]
      split_ifs with whole
      · rw [no_digit, List.append_nil, (List.takeWhile_prefix _).eq_of_length whole]
      · rfl
    have left : (r ++ t).dropWhile Char.isDigit = r.dropWhile Char.isDigit ++ t := by
      rw [List.dropWhile_append]
      split_ifs with none
      · rw [all, List.isEmpty_iff.mp none, List.nil_append]
      · rfl
    have next : ((r.dropWhile Char.isDigit ++ t).head?.map (!isAuthorityEnd true ·)).getD false =
        ((r.dropWhile Char.isDigit).head?.map (!isAuthorityEnd true ·)).getD false := by
      cases r.dropWhile Char.isDigit with
      | cons c rest => rfl
      | nil =>
        cases t with
        | nil => rfl
        | cons c t => simp [outside c rfl]
    rw [List.cons_append]
    unfold port
    simp only [digits, left, next]
    split_ifs <;> rfl

/-- A port takes what is left of the authority. -/
theorem port_rest (inside : Inside s) (behind : s = [] ∨ ∃ r, s = ':' :: r) {p : Option Nat}
    {rest : List Char} (read : port scheme s = .ok (p, rest)) : rest = [] := by
  rcases behind with rfl | ⟨r, rfl⟩
  · cases read
    rfl
  · unfold port at read
    simp only at read
    by_cases bad : 65535 < Text.Numeral.value 10 (r.takeWhile Char.isDigit) ∨
        ((r.dropWhile Char.isDigit).head?.map (!isAuthorityEnd true ·)).getD false
    · rw [if_pos bad] at read
      cases read
    rw [if_neg bad] at read
    cases read
    cases left : r.dropWhile Char.isDigit with
    | nil => rfl
    | cons c rest =>
      have mem : c ∈ r := (List.dropWhile_suffix _).subset (left ▸ List.mem_cons_self)
      have plain : isAuthorityEnd true c = false := inside c (List.mem_cons_of_mem _ mem)
      simp [left, plain] at bad

/-- An authority that is all of a text is the same with more text behind its end. -/
theorem readAuthority_append (special : isSpecial scheme = true) (inside : Inside s) (outside : Outside t) :
    readAuthority scheme (s ++ t) = (readAuthority scheme s).map fun (a, rest) => (a, rest ++ t) := by
  unfold readAuthority
  simp only [special, cutUserinfo_append inside outside, Option.isSome_map]
  have known : ((cutUserinfo true s).map fun (before, rest) => (before, rest ++ t)).getD ([], s ++ t) =
      (((cutUserinfo true s).getD ([], s)).1, ((cutUserinfo true s).getD ([], s)).2 ++ t) := by
    cases cutUserinfo true s <;> rfl
  have inner := inside.cut
  rw [known]
  generalize (cutUserinfo true s).getD ([], s) = c at inner
  obtain ⟨before, name⟩ := c
  simp only at inner
  simp only [bind, Except.bind, pure, Except.pure, host_append special inner outside]
  cases name with
  | nil =>
    have none : host scheme [] = .error .emptyHost := host_special special []
    simp only [none, Except.map, ite_self]
  | cons c name =>
    have plain : isAuthorityEnd true c = false := inner c List.mem_cons_self
    simp only [List.cons_append, List.head?_cons, Option.map_some, plain, Option.getD_some,
      Bool.false_eq_true, and_false, if_false]
    cases read : host scheme (c :: name) with
    | error e => rfl
    | ok v =>
      obtain ⟨h, rest⟩ := v
      -- the port begins where the host ends, and that is in the authority as well
      obtain ⟨within, behind⟩ := host_rest special inner read
      simp only [Except.map, port_append within outside behind]
      cases port scheme rest with
      | error e => rfl
      | ok w =>
        simp only
        split_ifs <;> rfl

/-- There has to be an authority. -/
theorem readAuthority_nil (special : isSpecial scheme = true) : readAuthority scheme [] = .error .emptyHost := by
  have none : host scheme [] = .error .emptyHost := host_special special []
  have nobody : cutUserinfo true [] = Option.none := rfl
  unfold readAuthority
  simp [special, nobody, none, bind, Except.bind]

theorem readAuthority_rest (special : isSpecial scheme = true) (inside : Inside s) {a : Authority}
    {rest : List Char} (read : readAuthority scheme s = .ok (a, rest)) : rest = [] := by
  unfold readAuthority at read
  simp only [special, bind, Except.bind, pure, Except.pure] at read
  have inner := inside.cut
  generalize (cutUserinfo true s).getD ([], s) = c at inner read
  obtain ⟨before, name⟩ := c
  split at read
  · cases read
  cases named : host scheme name with
  | error e =>
    rw [named] at read
    cases read
  | ok v =>
    obtain ⟨h, behind⟩ := v
    obtain ⟨within, colon⟩ := host_rest special inner named
    simp only [named] at read
    cases taken : port scheme behind with
    | error e =>
      rw [taken] at read
      cases read
    | ok w =>
      obtain ⟨p, left⟩ := w
      obtain rfl := port_rest within colon taken
      simp only [taken] at read
      split_ifs at read
      cases read
      rfl

/-- **What follows the authority decides about path, query and fragment only.** -/
theorem afterSlashes_append (special : isSpecial scheme = true) (inside : Inside s) (outside : Outside t) :
    afterSlashes scheme (s ++ t) =
      (readAuthority scheme s).map fun (a, _) => withRest scheme (some a) (pathAfterHost true t) t := by
  rw [afterSlashes_eq, readAuthority_append special inside outside, special]
  cases read : readAuthority scheme s with
  | error e => rfl
  | ok v =>
    obtain ⟨a, rest⟩ := v
    obtain rfl := readAuthority_rest special inside read
    rfl

/-- A URL is an authority and what follows it. -/
theorem afterSlashes_parts {u : Url} (special : isSpecial scheme = true) (read : afterSlashes scheme s = .ok u) :
    ∃ front path a, s = front ++ path ∧ front ≠ [] ∧ Inside front ∧ Outside path ∧
      (∃ rest, readAuthority scheme front = .ok (a, rest)) ∧
      u = withRest scheme (some a) (pathAfterHost true path) path := by
  have inside : Inside (s.takeWhile (!isAuthorityEnd true ·)) := fun c mem => by
    simpa using List.mem_takeWhile_imp mem
  have outside : Outside (s.dropWhile (!isAuthorityEnd true ·)) := fun c first => by
    have stopped := List.head?_dropWhile_not (!isAuthorityEnd true ·) s
    rw [Option.mem_def.mp first] at stopped
    simpa using stopped
  have whole := List.takeWhile_append_dropWhile (p := (!isAuthorityEnd true ·)) (l := s)
  rw [← whole, afterSlashes_append special inside outside] at read
  cases known : readAuthority scheme (s.takeWhile (!isAuthorityEnd true ·)) with
  | error e =>
    rw [known] at read
    cases read
  | ok v =>
    rw [known] at read
    cases read
    refine ⟨_, _, v.1, whole.symm, fun none => ?_, inside, outside, ⟨v.2, known⟩, rfl⟩
    rw [none, readAuthority_nil special] at known
    cases known

/-! ## Blanks at the end -/

/-- A percent sign without two digits behind it. -/
theorem decode_sign {x y : UInt8} {r : Bytes}
    (plain : ∀ m n, Ascii.hexValue? x = some m → Ascii.hexValue? y = some n → False) :
    Percent.decode (0x25 :: x :: y :: r) = 0x25 :: Percent.decode (x :: y :: r) := by
  rw [Percent.decode]
  split
  · next m n high low => exact (plain m n high low).elim
  · rfl

section
variable {b : UInt8} (blank : b ≤ 0x20)
include blank

/-- A blank byte is no digit of an encoded byte. -/
theorem decode_concat (bs : Bytes) : Percent.decode (bs ++ [b]) = Percent.decode bs ++ [b] := by
  have no_digit : Ascii.hexValue? b = none := by
    have low : ¬0x30 ≤ b ∧ ¬0x61 ≤ b ∧ ¬0x41 ≤ b := by
      simp only [UInt8.le_iff_toNat_le] at blank ⊢
      refine ⟨?_, ?_, ?_⟩ <;> (intro above; exact absurd (Nat.le_trans above blank) (by decide))
    simp [Ascii.hexValue?, low]
  -- only a percent sign in the last two places looks as far as the blank
  fun_induction Percent.decode bs with
  | case1 x y r m n high low ih =>
    rw [List.cons_append, List.cons_append, List.cons_append, Percent.decode, high, low, ← List.cons_append, ih]
    rfl
  | case2 x y r plain ih =>
    rw [List.cons_append, List.cons_append, List.cons_append, decode_sign plain, ← List.cons_append,
      ← List.cons_append, ih]
    rfl
  | case3 c r plain ih =>
    by_cases sign : c = 0x25
    · subst sign
      cases r with
      | nil => simp [Percent.decode]
      | cons x r =>
        cases r with
        | nil =>
          change Percent.decode (0x25 :: x :: b :: []) = _
          rw [decode_sign fun m n _ digit => by rw [no_digit] at digit; cases digit]
          exact congrArg _ ih
        | cons y r => exact (plain x y r rfl rfl).elim
    · rw [List.cons_append, Percent.decode_cons sign, ih]
      rfl
  | case4 =>
    rw [List.nil_append, Percent.decode_cons (by rintro rfl; exact absurd blank (by decide))]
    rfl

end

section
variable {c : Char} (blank : c ≤ ' ')
include blank

theorem toNat_le_of_blank : c.toNat ≤ 0x20 := UInt32.le_iff_toNat_le.mp (show c.val ≤ (' ' : Char).val from blank)

theorem lossy_concat (bs : Bytes) : (Utf8.lossy (bs ++ [Ascii.ofChar c])).toList = (Utf8.lossy bs).toList ++ [c] := by
  have ascii : c.toNat < 0x80 := Nat.lt_of_le_of_lt (toNat_le_of_blank blank) (by decide)
  have last : [Ascii.ofChar c] = Utf8.encode (.ofList [c]) := by
    rw [Utf8.encode_ofList, List.flatMap_singleton, Utf8.encodeChar_ascii ascii]
  have around := Utf8.lossy_around (m := .ofList [c]) (by simp) bs []
  rw [List.append_nil, ← last, Utf8.lossy_nil, String.append_empty] at around
  rw [around, String.toList_append, String.toList_ofList]

/-- No domain name ends with a blank. -/
theorem toAscii?_blank (s : List Char) :
    Domain.toAscii? (Percent.decode (Utf8.encode (.ofList (s ++ [c])))) = none := by
  have low : c.toNat ≤ 0x20 := toNat_le_of_blank blank
  have bytes : Utf8.encode (.ofList (s ++ [c])) = Utf8.encode (.ofList s) ++ [Ascii.ofChar c] := by
    rw [Utf8.encode_ofList, Utf8.encode_ofList, List.flatMap_append, List.flatMap_singleton,
      Utf8.encodeChar_ascii (Nat.lt_of_le_of_lt low (by decide))]
  have value : (Ascii.ofChar c).toNat = c.toNat := by
    show c.toNat % 256 = c.toNat
    omega
  have byte : Ascii.ofChar c ≤ 0x20 := by
    rw [UInt8.le_iff_toNat_le, value]
    exact low
  rw [bytes, decode_concat byte]
  unfold Domain.toAscii?
  have all : ∀ n < 0x21, Domain.mapped (.ofNat n) = [.ofNat n] ∧ Domain.isValid (.ofNat n) = false := by decide
  obtain ⟨kept, refused⟩ := all c.toNat (Nat.lt_succ_of_le low)
  rw [Char.ofNat_toNat] at kept refused
  rw [if_neg]
  simp only [lossy_concat blank, List.flatMap_append, List.flatMap_cons, List.flatMap_nil, kept, List.append_nil,
    List.all_append, List.all_cons, refused, Bool.false_and, Bool.and_false]
  exact Bool.false_ne_true

theorem ofName_blank (s : List Char) : ∃ e, Host.ofName (s ++ [c]) = .error e := by
  unfold Host.ofName
  split
  · next r same =>
    have last := congrArg List.getLast? same
    rw [List.getLast?_concat] at last
    have open_end : r.getLast? ≠ some ']' := by
      intro closed
      cases r with
      | nil => cases closed
      | cons d r =>
        rw [List.getLast?_cons_cons, closed] at last
        obtain rfl := Option.some.inj last
        exact absurd blank (by decide)
    exact ⟨.ipv6, by simp [Host.bracketed, open_end]⟩
  · rw [toAscii?_blank blank]
    exact ⟨_, rfl⟩

/-- The last at sign comes before a blank at the end. -/
theorem cutUserinfo_concat {s : List Char} (inside : Inside (s ++ [c])) :
    ∃ name, ((cutUserinfo true (s ++ [c])).getD ([], s ++ [c])).2 = name ++ [c] := by
  have other : c ≠ '@' := by
    rintro rfl
    exact absurd blank (by decide)
  unfold cutUserinfo
  simp only [inside.takeWhile_eq]
  split_ifs
  · have cut : (s ++ [c]).length - ((s ++ [c]).reverse.takeWhile (· ≠ '@')).length ≤ s.length := by
      simp [other]
    exact ⟨_, List.drop_append_of_le_length cut⟩
  · exact ⟨s, rfl⟩

/-- A blank at the end is no part of a host, and of no port either. -/
theorem port_blank {name rest : List Char} {h : Host} (special : isSpecial scheme = true)
    (inside : Inside (name ++ [c])) (named : host scheme (name ++ [c]) = .ok (h, rest)) :
    port scheme rest = .error .port := by
  obtain ⟨text, whole, known, behind⟩ := host_eq_ok special inside named
  obtain ⟨within, -⟩ := host_rest special inside named
  obtain rfl | ⟨r, rfl⟩ := behind
  · obtain ⟨e, unknown⟩ := ofName_blank blank name
    rw [whole, List.append_nil, known] at unknown
    cases unknown
  have last : (':' :: r).getLast? = some c := by
    have same := congrArg List.getLast? whole
    rwa [List.getLast?_concat, List.getLast?_append, List.getLast?_cons, Option.some_or, eq_comm,
      ← List.getLast?_cons] at same
  have mem : c ∈ r := by
    rcases List.mem_cons.mp (List.mem_of_getLast? last) with rfl | mem
    · exact absurd blank (by decide)
    · exact mem
  have no_digit : c.isDigit = false := by
    by_contra digit
    have low : '0' ≤ c := by
      simp only [Bool.not_eq_false, Char.isDigit, Bool.and_eq_true, decide_eq_true_eq] at digit
      exact digit.1
    exact absurd (Char.le_trans low blank) (by decide)
  cases left : r.dropWhile Char.isDigit with
  | nil =>
    have digit := List.dropWhile_eq_nil_iff.mp left c mem
    exact absurd digit (by simp [no_digit])
  | cons d rest =>
    have from_r : d ∈ r := (List.dropWhile_suffix _).subset (left ▸ List.mem_cons_self)
    have plain : isAuthorityEnd true d = false := within d (List.mem_cons_of_mem _ from_r)
    unfold port
    simp [left, plain]

/-- **No authority ends with a blank.** -/
theorem readAuthority_blank {s : List Char} (special : isSpecial scheme = true) (inside : Inside (s ++ [c])) :
    ∃ e, readAuthority scheme (s ++ [c]) = .error e := by
  obtain ⟨name, ends⟩ := cutUserinfo_concat blank inside
  have inner := inside.cut
  unfold readAuthority
  simp only [special, bind, Except.bind, pure, Except.pure]
  generalize (cutUserinfo true (s ++ [c])).getD ([], s ++ [c]) = cut at ends inner
  obtain ⟨before, text⟩ := cut
  obtain rfl : text = name ++ [c] := ends
  split
  · exact ⟨_, rfl⟩
  simp only at inner ⊢
  cases named : host scheme (name ++ [c]) with
  | error e => exact ⟨_, rfl⟩
  | ok v =>
    simp only [port_blank blank special inner named]
    exact ⟨_, rfl⟩

end

end TierTagger.Url
