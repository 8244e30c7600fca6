import TierTagger.Json.Record
import TierTagger.Proofs.Json.Skipping

/-!
# What a decoder reads is one value

- `Exact`: a decoder that reads exactly what skipping a value passes over, whatever it makes of it. Strings,
  `null` and records are read so (`exact_text`, `Exact.nullable`, `Record.exact_decoder`).
- **Records** (`nextKey_sound`, `member_sound`, `members_sound`, `elements_sound`): the loops of a record take
  the same steps as skipping does, and reach the same end.
-/

namespace TierTagger.Json

open Ascii

variable {α β : Type} {d : Decoder α} {a : α} {s t r w : Bytes}

/-- The decoder reads what skipping a value passes over. -/
def Exact (d : Decoder α) : Prop := ∀ s a r, d.read s = .ok (a, r) → skipValue s = .ok r

/-! ## Strings -/

/-- Four digits after a `u` are passed over, whatever they stand for. -/
theorem skipString_unicode {n : Nat} (hex : hex4 s = .ok (n, r)) :
    skipString (backslash :: ofChar 'u' :: s) = skipString r := by
  refine skipString_escape ?_
  simp [skipEscape, show simpleEscape? (ofChar 'u') = none by decide, hex, Except.map]

theorem skipString_of_lowSurrogate {high : Nat} {bs : Bytes} (read : lowSurrogate high s = .ok (bs, r)) :
    skipString s = skipString r := by
  unfold lowSurrogate at read
  split at read
  · cases read
  · split at read <;> cases read
  · split at read
    · cases read
    next first =>
    split at read
    · cases read
    next letter =>
    split at read
    · cases read
    next low =>
    split at read
    · simp only [Except.ok.injEq, Prod.mk.injEq] at read
      obtain ⟨-, rfl⟩ := read
      rw [Classical.not_not.mp first, Classical.not_not.mp letter, skipString_unicode low]
    · cases read

theorem skipString_of_unicodeEscape {bs : Bytes} (read : unicodeEscape s = .ok (bs, r)) :
    skipString (backslash :: ofChar 'u' :: s) = skipString r := by
  unfold unicodeEscape at read
  split at read
  · cases read
  next hex =>
  rw [skipString_unicode hex]
  split at read
  · cases read
  split at read
  · exact skipString_of_lowSurrogate read
  · cases read
    rfl

/-- An escape that is read is one that is passed over, or two if they make a surrogate pair. -/
theorem skipString_of_escape {bs : Bytes} (read : escape s = .ok (bs, r)) :
    skipString (backslash :: s) = skipString r := by
  unfold escape at read
  split at read
  · cases read
  split at read
  · next simple =>
    cases read
    exact skipString_escape (by simp [skipEscape, simple])
  split at read
  · next letter => exact letter ▸ skipString_of_unicodeEscape read
  · cases read

theorem skipString_of_stringBytes {read bs : Bytes} (ok : stringBytes read s = .ok (bs, r)) :
    skipString s = .ok r := by
  fun_induction stringBytes read s with
  | case1 => cases ok
  | case2 =>
    cases ok
    exact skipString_append .nil
  | case3 => cases ok
  | case4 read t bs u escaped _ ih => rw [skipString_of_escape escaped, ih ok]
  | case5 => cases ok
  | case6 read b t not_quote not_backslash not_control ih =>
    rw [skipString, if_neg not_quote, if_neg not_backslash, if_neg not_control, ih ok]

theorem skipString_of_string {x : String} (read : string s = .ok (x, r)) : skipString s = .ok r := by
  unfold string at read
  split at read
  · cases read
  · next bytes =>
    split at read
    · cases read
      exact skipString_of_stringBytes bytes
    · cases read

/-! ## Decoders -/

theorem skipValue_scalar {b : UInt8} (found : skipBlanks s = b :: t) (not_list : b ≠ openBracket)
    (not_object : b ≠ openBrace) : skipValue s = skipScalar b t := by
  rw [skipValue, skip_eq, found]
  simp only [if_neg not_list, if_neg not_object]
  cases skipScalar b t <;> rfl

theorem exact_text : Exact .text := by
  intro s x r read
  simp only [Decoder.text, Decoder.ofFirst] at read
  split at read
  · cases read
  · next b t found =>
    split at read
    · next same =>
      subst same
      rw [skipValue_scalar found (by decide) (by decide)]
      exact skipString_of_string read
    · exact (mismatch_ne_ok _ _ _ _ read).elim

theorem Decoder.map_eq_ok {f : α → β} {b : β} :
    (d.map f).read s = .ok (b, r) ↔ ∃ a, d.read s = .ok (a, r) ∧ f a = b := by
  simp only [Decoder.map, Except.map]
  cases d.read s with
  | error => simp
  | ok x =>
    simp only [Except.ok.injEq, Prod.ext_iff]
    exact ⟨fun h => ⟨x.1, ⟨rfl, h.2⟩, h.1⟩, fun ⟨_, h, same⟩ => ⟨h.1 ▸ same, h.2⟩⟩

theorem Exact.map (exact : Exact d) (f : α → β) : Exact (d.map f) := by
  intro s b r read
  obtain ⟨a, read, -⟩ := Decoder.map_eq_ok.mp read
  exact exact s a r read

theorem Exact.field {name : String} {absence : Absence} {set : α → β → β} (exact_ : Exact d) :
    Exact (Field.of name absence d set).read := exact_.map set

theorem Exact.nullable (exact_ : Exact d) : Exact d.nullable := by
  intro s x r read
  simp only [Decoder.nullable] at read
  split at read
  · exact exact_.map some s x r read
  · next b t found =>
    split at read
    · next same =>
      subst same
      rw [skipValue_scalar found (by decide) (by decide), skipScalar, if_pos rfl]
      cases rest : letters nullTail t with
      | error => simp [rest, Except.map] at read
      | ok u =>
        simp only [rest, Except.map, Except.ok.injEq, Prod.mk.injEq] at read
        rw [read.2]
    · exact exact_.map some s x r read

theorem Exact.orDefault [Inhabited α] (exact_ : Exact d) : Exact d.orDefault := exact_.nullable.map _

/-! ## Records -/

namespace Record

variable {k : Record α} {first : Bool} {seen : List String} {b : α} {outer : List Bracket}

theorem nextKey_sound {more : Bool} (next : nextKey first s = .ok (more, r)) :
    skip (.item (!first)) (.object :: outer) s =
      if more then skipKey r >>= skip .value (.object :: outer) else resume outer r := by
  unfold nextKey at next
  split at next
  · cases next
  · next b t found =>
    split at next
    · next closes =>
      cases next
      exact skip_closer (found.trans (by rw [closes]; rfl))
    · next opens =>
      split at next
      · next isFirst =>
        split at next
        · next same =>
          cases next
          rw [isFirst, Bool.not_true, skip_first (k := .object) found opens, Bracket.start, skip_eq, found]
          simp [same]
        · cases next
      · next notFirst =>
        split at next
        · next same =>
          rw [same] at found
          split at next
          · cases next
          · next found' =>
            split at next
            · next same' =>
              cases next
              rw [eq_false_of_ne_true notFirst, Bool.not_false, skip_comma found, Bracket.start, skip_eq,
                found']
              simp [same']
            · cases next
        · cases next

theorem member_sound {key : String} {x : List String × α} (exact_ : ∀ f ∈ k.fields, Exact f.read)
    (read : member k seen a key s = .ok (x, r)) : ∃ t, readColon s = .ok t ∧ skipValue t = .ok r := by
  unfold member at read
  split at read
  · split at read
    · cases read
    · next t colon =>
      cases passed : skipValue t with
      | error => simp [passed, Except.map] at read
      | ok u =>
        simp only [passed, Except.map, Except.ok.injEq, Prod.mk.injEq] at read
        exact ⟨t, colon, read.2 ▸ passed⟩
  · next field found =>
    split at read
    · exact (refuse_ne_ok _ _ _ _ read).elim
    · split at read
      · cases read
      · next t colon =>
        cases value : field.read.read t with
        | error => simp [value, Except.map] at read
        | ok y =>
          simp only [value, Except.map, Except.ok.injEq, Prod.mk.injEq] at read
          exact ⟨t, colon, read.2 ▸ exact_ field (List.mem_of_find?_eq_some found) _ _ _ value⟩

theorem members_sound (exact_ : ∀ f ∈ k.fields, Exact f.read)
    (read : members k first seen a s = .ok (b, r)) : skip (.item (!first)) [.object] s = .ok r := by
  fun_induction members k first seen a s with
  | case1 => cases read
  | case2 => cases read
  | case3 first seen a s t next =>
    cases read
    exact nextKey_sound next
  | case4 => cases read
  | case5 => cases read
  | case6 first seen a s t next key u name seen' a' v value ih =>
    obtain ⟨u', colon, passed⟩ := member_sound exact_ value
    rw [nextKey_sound next, if_pos rfl, skipKey, skipString_of_string name]
    show readColon u >>= _ = _
    rw [colon]
    show skip .value _ u' = _
    rw [skip_value, passed]
    exact ih read

theorem closeList_sound {more : Bool} (read : Decoder.closeList s = .ok r) :
    skip (.item more) (.list :: outer) s = resume outer r := by
  unfold Decoder.closeList at read
  split at read
  · cases read
  · next b t found =>
    split at read
    · next closes =>
      cases read
      exact skip_closer (found.trans (by rw [closes]; rfl))
    · split at read
      · split at read
        · cases read
        · cases read
      · cases read

theorem nextItem_sound {u : Bytes} (next : Decoder.nextItem first s = .ok (some t, u)) :
    skip (.item (!first)) (.list :: outer) s = skip .value (.list :: outer) t := by
  unfold Decoder.nextItem at next
  split at next
  · cases next
  · next b v found =>
    split at next
    · cases next
    · next opens =>
      split at next
      · next isFirst =>
        cases next
        rw [isFirst, Bool.not_true, skip_first (k := .list) found opens, ← found]
        exact (skip_skipBlanks s).symm
      · next notFirst =>
        split at next
        · next same =>
          rw [same] at found
          split at next
          · cases next
          · next found' =>
            split at next
            · cases next
            · cases next
              rw [eq_false_of_ne_true notFirst, Bool.not_false, skip_comma found, ← found']
              exact (skip_skipBlanks v).symm
        · cases next

theorem nextItem_none {u : Bytes} (next : Decoder.nextItem first s = .ok (none, u)) : u = skipBlanks s := by
  unfold Decoder.nextItem at next
  grind [Fault.peek]

theorem elements_sound {left : List (Field α)} {index : Nat} (exact_ : ∀ f ∈ left, Exact f.read)
    (read : elements k left index first a s = .ok (b, r)) :
    skip (.item (!first)) [.list] s = .ok r := by
  induction left generalizing index first a s with
  | nil =>
    simp only [elements, Except.map] at read
    split at read
    · cases read
    · next closed =>
      cases read
      exact closeList_sound closed
  | cons f fs ih =>
    obtain ⟨field, rest⟩ := List.forall_mem_cons.mp exact_
    rw [elements] at read
    split at read
    · cases read
    · next u next =>
      split at read
      · rw [← skip_skipBlanks, ← nextItem_none next]
        exact ih rest read
      · exact (refuse_ne_ok _ _ _ _ read).elim
    · next u v next =>
      split at read
      · cases read
      · next value =>
        rw [nextItem_sound next, skip_value, field _ _ _ value]
        exact ih rest read

/-- A record is read as one value, be it written as an object or as a list. -/
theorem exact_decoder (exact_ : ∀ f ∈ k.fields, Exact f.read) : Exact k.decoder := by
  intro s a r read
  simp only [decoder, Decoder.ofFirst] at read
  split at read
  · cases read
  · next b t found =>
    split at read
    · next same =>
      subst same
      rw [skipValue, skip_eq, found]
      exact members_sound exact_ read
    split at read
    · next same =>
      subst same
      rw [skipValue, skip_eq, found]
      exact elements_sound exact_ read
    · exact (mismatch_ne_ok _ _ _ _ read).elim

/-! ### Where a member starts -/

section
variable {gap : Bytes} {m : Member}

theorem nextKey_first (blanks : Blanks gap) (lead : Blanks m.lead) :
    nextKey true (gap ++ (m.text ++ r)) =
      .ok (true, m.key ++ quote :: (m.gap ++ colon :: (m.element.text ++ r))) := by
  have found : skipBlanks (gap ++ (m.text ++ r)) =
      quote :: (m.key ++ quote :: (m.gap ++ colon :: (m.element.text ++ r))) := by
    rw [skipBlanks_append blanks, Member.text, List.append_assoc, List.cons_append,
      skipBlanks_first lead rfl]
    simp
  rw [nextKey, found]
  simp [show quote ≠ closeBrace by decide]

theorem nextKey_comma (blanks : Blanks gap) (lead : Blanks m.lead) :
    nextKey false (gap ++ comma :: (m.text ++ r)) =
      .ok (true, m.key ++ quote :: (m.gap ++ colon :: (m.element.text ++ r))) := by
  have found : skipBlanks (m.text ++ r) =
      quote :: (m.key ++ quote :: (m.gap ++ colon :: (m.element.text ++ r))) := by
    rw [Member.text, List.append_assoc, List.cons_append, skipBlanks_first lead rfl]
    simp
  rw [nextKey, skipBlanks_first blanks rfl]
  simp [show comma ≠ closeBrace by decide, found]

theorem nextKey_closer {first : Bool} (blanks : Blanks gap) :
    nextKey first (gap ++ closeBrace :: r) = .ok (false, r) := by
  rw [nextKey, skipBlanks_first blanks rfl]
  simp

end

end Record

end TierTagger.Json
