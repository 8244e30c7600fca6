import TierTagger.Text.Utf8

/-!
# Texts and their bytes

A text is read back from its bytes (`decode?_encode`), and from no others (`decode?_eq_some`). A character is
a byte of its own if it is in ASCII, and bytes from 128 on otherwise.
-/

namespace TierTagger.Utf8

variable {c : Char} {s r t : Bytes}

/-! ## Bytes of a character -/

/-- The four forms of a character. -/
inductive Form : Nat → Bytes → Prop where
  | one {n} (small : n < 0x80) : Form n [.ofNat n]
  | two {n} (low : 0x80 ≤ n) (high : n < 0x800) : Form n [.ofNat (n / 64 + 0xc0), .ofNat (n % 64 + 0x80)]
  | three {n} (low : 0x800 ≤ n) (high : n < 0x10000) (scalar : n < 0xd800 ∨ 0xdfff < n) :
    Form n [.ofNat (n / 4096 + 0xe0), .ofNat (n / 64 % 64 + 0x80), .ofNat (n % 64 + 0x80)]
  | four {n} (low : 0x10000 ≤ n) (high : n < 0x110000) :
    Form n [.ofNat (n / 262144 + 0xf0), .ofNat (n / 4096 % 64 + 0x80), .ofNat (n / 64 % 64 + 0x80),
      .ofNat (n % 64 + 0x80)]

theorem encodeChar_form (c : Char) : Form c.toNat (String.utf8EncodeChar c) := by
  have valid : c.toNat < 0xd800 ∨ 0xdfff < c.toNat ∧ c.toNat < 0x110000 := c.valid
  have same : c.val.toNat = c.toNat := rfl
  simp only [String.utf8EncodeChar, same]
  by_cases one : c.toNat ≤ 127
  · rw [if_pos one]
    exact .one (by omega)
  rw [if_neg one]
  by_cases two : c.toNat ≤ 2047
  · rw [if_pos two, show c.toNat / 64 % 32 = c.toNat / 64 by omega]
    exact .two (by omega) (by omega)
  rw [if_neg two]
  by_cases three : c.toNat ≤ 65535
  · rw [if_pos three, show c.toNat / 4096 % 16 = c.toNat / 4096 by omega]
    exact .three (by omega) (by omega) (by omega)
  rw [if_neg three, show c.toNat / 262144 % 8 = c.toNat / 262144 by omega]
  exact .four (by omega) (by omega)

theorem encodeChar_ascii (ascii : c.toNat < 0x80) : String.utf8EncodeChar c = [Ascii.ofChar c] := by
  have small : c.val.toNat ≤ 127 := Nat.le_of_lt_succ ascii
  simp only [String.utf8EncodeChar, small, if_true]
  rfl

/-- The bytes of a character outside ASCII. -/
theorem encodeChar_high (high : 0x80 ≤ c.toNat) : ∀ b ∈ String.utf8EncodeChar c, (0x80 : UInt8) ≤ b := by
  have above {n : Nat} (low : 0x80 ≤ n) (small : n < 256) : (0x80 : UInt8) ≤ .ofNat n := by
    rw [UInt8.le_iff_toNat_le, UInt8.toNat_ofNat_of_lt' small]
    exact low
  have form := encodeChar_form c
  generalize String.utf8EncodeChar c = bytes at form ⊢
  generalize c.toNat = n at form high
  cases form with
  | one => omega
  | two | three | four =>
    simp only [List.forall_mem_cons, List.not_mem_nil, false_implies, implies_true, and_true]
    repeat' apply And.intro
    all_goals exact above (by omega) (by omega)

/-- No byte of a text has all its bits set. -/
theorem not_mem_encode (x : String) : 0xff ∉ encode x := by
  intro mem
  obtain ⟨c, -, mem⟩ := List.mem_flatMap.mp mem
  have form := encodeChar_form c
  generalize String.utf8EncodeChar c = bytes at form mem
  have below {n : Nat} (small : n < 0xff) : (0xff : UInt8) ≠ .ofNat n := by
    intro same
    have value := congrArg UInt8.toNat same
    rw [UInt8.toNat_ofNat_of_lt' (Nat.lt_succ_of_lt small)] at value
    exact absurd value.symm (Nat.ne_of_lt small)
  cases form with
  | one | two | three | four =>
    simp only [List.mem_cons, List.not_mem_nil, or_false] at mem
    repeat' rcases mem with mem | mem
    all_goals exact below (by omega) mem

/-! ## Reading characters back -/

/-- A continuation byte is read. -/
theorem follow_continued {bits more k : Nat} {low high : UInt8} (above : low.toNat ≤ k % 64 + 0x80)
    (below : k % 64 + 0x80 ≤ high.toNat) : follow bits (more + 1) low high (.ofNat (k % 64 + 0x80) :: r) =
      follow (bits * 64 + k % 64) more 0x80 0xbf r := by
  have small : k % 64 + 0x80 < 256 := by omega
  have value := UInt8.toNat_ofNat_of_lt' small
  have within : low ≤ UInt8.ofNat (k % 64 + 0x80) ∧ UInt8.ofNat (k % 64 + 0x80) ≤ high := by
    rw [UInt8.le_iff_toNat_le, UInt8.le_iff_toNat_le, value]
    exact ⟨above, below⟩
  rw [follow, if_pos within, value, Nat.add_sub_cancel]

/-- The bounds on the second byte keep overlong forms and surrogates out. -/
theorem lead?_ofNat {n : Nat} (small : n < 256) : lead? (.ofNat n) =
    if n < 0x80 then some ⟨n, 0, 0x80, 0xbf⟩
    else if n < 0xc2 then none
    else if n < 0xe0 then some ⟨n - 0xc0, 1, 0x80, 0xbf⟩
    else if n = 0xe0 then some ⟨0, 2, 0xa0, 0xbf⟩
    else if n = 0xed then some ⟨0xd, 2, 0x80, 0x9f⟩
    else if n < 0xf0 then some ⟨n - 0xe0, 2, 0x80, 0xbf⟩
    else if n = 0xf0 then some ⟨0, 3, 0x90, 0xbf⟩
    else if n < 0xf4 then some ⟨n - 0xf0, 3, 0x80, 0xbf⟩
    else if n = 0xf4 then some ⟨4, 3, 0x80, 0x8f⟩
    else none := by
  simp only [lead?, UInt8.lt_iff_toNat_lt, ← UInt8.toNat_inj, UInt8.toNat_ofNat_of_lt' small]
  rfl

/-- A character is read back from its bytes. -/
theorem Form.piece_eq {n : Nat} {b : UInt8} {t : Bytes} (form : Form n (b :: t)) (r : Bytes) :
    piece b (t ++ r) = (some (Char.ofNat n), r) := by
  unfold piece
  cases form with
  | one small =>
    rw [lead?_ofNat (by omega), if_pos small]
    rfl
  | two low high =>
    rw [lead?_ofNat (by omega), if_neg (by omega), if_neg (by omega), if_pos (by omega)]
    simp only [List.cons_append, List.nil_append]
    rw [follow_continued (Nat.le_add_left ..) (by show _ ≤ 0xbf; omega),
      show (n / 64 + 0xc0 - 0xc0) * 64 + n % 64 = n by omega, follow]
  | three low high scalar =>
    have value : (n / 4096 * 64 + n / 64 % 64) * 64 + n % 64 = n := by omega
    -- The second byte is above 0x9f after 0xe0, and below 0xa0 after 0xed.
    obtain ⟨least, most, lead, above, below⟩ : ∃ least most,
        lead? (.ofNat (n / 4096 + 0xe0)) = some ⟨n / 4096, 2, least, most⟩ ∧
          least.toNat ≤ n / 64 % 64 + 0x80 ∧ n / 64 % 64 + 0x80 ≤ most.toNat := by
      rw [lead?_ofNat (by omega), if_neg (by omega), if_neg (by omega), if_neg (by omega)]
      by_cases first : n / 4096 = 0
      · exact ⟨0xa0, 0xbf, by simp [first], by show 0xa0 ≤ _; omega, by show _ ≤ 0xbf; omega⟩
      by_cases surrogates : n / 4096 = 13
      · exact ⟨0x80, 0x9f, by simp [surrogates], by show 0x80 ≤ _; omega, by show _ ≤ 0x9f; omega⟩
      · rw [if_neg (by omega), if_neg (by omega), if_pos (by omega), Nat.add_sub_cancel]
        exact ⟨0x80, 0xbf, rfl, by show 0x80 ≤ _; omega, by show _ ≤ 0xbf; omega⟩
    rw [lead]
    simp only [List.cons_append, List.nil_append]
    rw [follow_continued above below,
      follow_continued (Nat.le_add_left ..) (by show _ ≤ 0xbf; omega), value, follow]
  | four low high =>
    have value : ((n / 262144 * 64 + n / 4096 % 64) * 64 + n / 64 % 64) * 64 + n % 64 = n := by omega
    -- The second byte is above 0x8f after 0xf0, and below 0x90 after 0xf4.
    obtain ⟨least, most, lead, above, below⟩ : ∃ least most,
        lead? (.ofNat (n / 262144 + 0xf0)) = some ⟨n / 262144, 3, least, most⟩ ∧
          least.toNat ≤ n / 4096 % 64 + 0x80 ∧ n / 4096 % 64 + 0x80 ≤ most.toNat := by
      rw [lead?_ofNat (by omega), if_neg (by omega), if_neg (by omega), if_neg (by omega),
        if_neg (by omega), if_neg (by omega), if_neg (by omega)]
      by_cases first : n / 262144 = 0
      · exact ⟨0x90, 0xbf, by simp [first], by show 0x90 ≤ _; omega, by show _ ≤ 0xbf; omega⟩
      by_cases last : n / 262144 = 4
      · exact ⟨0x80, 0x8f, by simp [last], by show 0x80 ≤ _; omega, by show _ ≤ 0x8f; omega⟩
      · rw [if_neg (by omega), if_pos (by omega), Nat.add_sub_cancel]
        exact ⟨0x80, 0xbf, rfl, by show 0x80 ≤ _; omega, by show _ ≤ 0xbf; omega⟩
    rw [lead]
    simp only [List.cons_append, List.nil_append]
    rw [follow_continued above below,
      follow_continued (Nat.le_add_left ..) (by show _ ≤ 0xbf; omega),
      follow_continued (Nat.le_add_left ..) (by show _ ≤ 0xbf; omega), value, follow]

/-- The first piece is the character whose bytes come first. -/
theorem pieces_encodeChar (c : Char) (r : Bytes) :
    pieces (String.utf8EncodeChar c ++ r) = some c :: pieces r := by
  have form := encodeChar_form c
  cases bytes : String.utf8EncodeChar c with
  | nil => exact absurd bytes String.utf8EncodeChar_ne_nil
  | cons b t =>
    rw [bytes] at form
    rw [List.cons_append, pieces_cons, form.piece_eq, Char.ofNat_toNat]

/-- The characters at the start of a sequence are told by it. -/
theorem encodeChar_append_inj {d : Char} (same : String.utf8EncodeChar c ++ s = String.utf8EncodeChar d ++ r) :
    c = d ∧ s = r := by
  have pieces := congrArg pieces same
  rw [pieces_encodeChar, pieces_encodeChar] at pieces
  obtain ⟨first, -⟩ := List.cons.inj pieces
  obtain rfl := Option.some.inj first
  exact ⟨rfl, List.append_cancel_left same⟩

theorem pieces_encode (s : String) : pieces (encode s) = s.toList.map some := by
  unfold encode
  induction s.toList with
  | nil => exact pieces_nil
  | cons c cs ih => rw [List.flatMap_cons, pieces_encodeChar, ih, List.map_cons]

/-- A text is read back from its bytes. -/
@[simp] theorem decode?_encode (s : String) : decode? (encode s) = some s := by
  have all (cs : List Char) : (cs.map some).mapM id = some cs := by
    induction cs with
    | nil => rfl
    | cons c cs ih => simp [List.mapM_cons, ih]
  rw [decode?, pieces_encode, all]
  simp

/-! ## Bytes of what was read -/

/-- The bits of a first byte and the bounds on the second one, which keep to the four forms. -/
inductive Announces : Nat → Lead → Prop where
  | one {n} (small : n < 0x80) : Announces n ⟨n, 0, 0x80, 0xbf⟩
  | two {i} (least : 2 ≤ i) (most : i < 32) : Announces (i + 0xc0) ⟨i, 1, 0x80, 0xbf⟩
  | three {i low high} (most : i < 16) (least : 0x80 ≤ low.toNat) (below : high.toNat ≤ 0xbf)
    (overlong : i = 0 → 0xa0 ≤ low.toNat) (surrogate : i = 13 → high.toNat ≤ 0x9f) :
    Announces (i + 0xe0) ⟨i, 2, low, high⟩
  | four {i low high} (most : i < 5) (least : 0x80 ≤ low.toNat) (below : high.toNat ≤ 0xbf)
    (overlong : i = 0 → 0x90 ≤ low.toNat) (last : i = 4 → high.toNat ≤ 0x8f) :
    Announces (i + 0xf0) ⟨i, 3, low, high⟩

theorem lead?_announces {n : Nat} (small : n < 256) {l : Lead} (lead : lead? (.ofNat n) = some l) :
    Announces n l := by
  rw [lead?_ofNat small] at lead
  repeat' split at lead
  all_goals simp only [Option.some.injEq, reduceCtorEq] at lead
  all_goals subst lead
  · exact .one (by omega)
  · obtain ⟨i, rfl⟩ : ∃ i, n = i + 0xc0 := ⟨n - 0xc0, by omega⟩
    rw [Nat.add_sub_cancel]
    exact .two (by omega) (by omega)
  · subst n
    exact .three (i := 0) (by decide) (by decide) (by decide) (by decide) (by decide)
  · subst n
    exact .three (i := 13) (by decide) (by decide) (by decide) (by decide) (by decide)
  · obtain ⟨i, rfl⟩ : ∃ i, n = i + 0xe0 := ⟨n - 0xe0, by omega⟩
    rw [Nat.add_sub_cancel]
    exact .three (by omega) (by decide) (by decide) (by omega) (by omega)
  · subst n
    exact .four (i := 0) (by decide) (by decide) (by decide) (by decide) (by decide)
  · obtain ⟨i, rfl⟩ : ∃ i, n = i + 0xf0 := ⟨n - 0xf0, by omega⟩
    rw [Nat.add_sub_cancel]
    exact .four (by omega) (by decide) (by decide) (by omega) (by omega)
  · subst n
    exact .four (i := 4) (by decide) (by decide) (by decide) (by decide) (by decide)

/-- A byte was read onto the bits before it, within the bounds. -/
theorem follow_step {bits more : Nat} {low high : UInt8} (least : 0x80 ≤ low.toNat) (most : high.toNat ≤ 0xbf)
    (read : follow bits (more + 1) low high s = (some c, t)) :
    ∃ k r, s = .ofNat (k + 0x80) :: r ∧ k < 64 ∧ low.toNat ≤ k + 0x80 ∧ k + 0x80 ≤ high.toNat ∧
      follow (bits * 64 + k) more 0x80 0xbf r = (some c, t) := by
  cases s with
  | nil => cases read
  | cons b r =>
    rw [follow] at read
    split at read
    · next within =>
      obtain ⟨above, below⟩ := within
      rw [UInt8.le_iff_toNat_le] at above below
      refine ⟨b.toNat - 0x80, r, ?_, by omega, by omega, by omega, read⟩
      rw [Nat.sub_add_cancel (Nat.le_trans least above), UInt8.ofNat_toNat]
    · cases read

/-- A character that was read has one of the four forms. -/
theorem Announces.form {n : Nat} {l : Lead} (announces : Announces n l)
    (read : follow l.bits l.more l.low l.high s = (some c, t)) :
    ∃ m w, .ofNat n :: s = w ++ t ∧ Form m w ∧ c = Char.ofNat m := by
  cases announces with
  | one small =>
    cases read
    exact ⟨n, [.ofNat n], rfl, .one small, rfl⟩
  | @two i least most =>
    dsimp only at read
    obtain ⟨k, r, rfl, small, -, -, read⟩ := follow_step (by decide) (by decide) read
    cases read
    refine ⟨i * 64 + k, [_, _], rfl, ?_, rfl⟩
    have form : Form (i * 64 + k) _ := .two (by omega) (by omega)
    rwa [show (i * 64 + k) / 64 = i by omega, show (i * 64 + k) % 64 = k by omega] at form
  | @three i low high most least below overlong surrogate =>
    obtain ⟨k, r, rfl, small, above, below, read⟩ := follow_step least below read
    obtain ⟨k', r, rfl, small', -, -, read⟩ := follow_step (by decide) (by decide) read
    cases read
    refine ⟨(i * 64 + k) * 64 + k', [_, _, _], rfl, ?_, rfl⟩
    have form : Form ((i * 64 + k) * 64 + k') _ := .three (by omega) (by omega) (by omega)
    rwa [show ((i * 64 + k) * 64 + k') / 4096 = i by omega, show ((i * 64 + k) * 64 + k') / 64 % 64 = k by omega,
      show ((i * 64 + k) * 64 + k') % 64 = k' by omega] at form
  | @four i low high most least below overlong last =>
    obtain ⟨k, r, rfl, small, above, below, read⟩ := follow_step least below read
    obtain ⟨k', r, rfl, small', -, -, read⟩ := follow_step (by decide) (by decide) read
    obtain ⟨k'', r, rfl, small'', -, -, read⟩ := follow_step (by decide) (by decide) read
    cases read
    refine ⟨((i * 64 + k) * 64 + k') * 64 + k'', [_, _, _, _], rfl, ?_, rfl⟩
    have form : Form (((i * 64 + k) * 64 + k') * 64 + k'') _ := .four (by omega) (by omega)
    rwa [show (((i * 64 + k) * 64 + k') * 64 + k'') / 262144 = i by omega,
      show (((i * 64 + k) * 64 + k') * 64 + k'') / 4096 % 64 = k by omega,
      show (((i * 64 + k) * 64 + k') * 64 + k'') / 64 % 64 = k' by omega,
      show (((i * 64 + k) * 64 + k') * 64 + k'') % 64 = k'' by omega] at form

/-- The bytes of a form are those of its character. -/
theorem Form.eq_encodeChar {n : Nat} {w : Bytes} (form : Form n w) : w = String.utf8EncodeChar (Char.ofNat n) := by
  have valid : n < 0xd800 ∨ 0xdfff < n ∧ n < 0x110000 := by
    cases form <;> omega
  have value : (Char.ofNat n).toNat = n := by
    rw [Char.ofNat, dif_pos (show n.isValidChar from valid)]
    rfl
  have other := encodeChar_form (Char.ofNat n)
  rw [value] at other
  generalize String.utf8EncodeChar (Char.ofNat n) = v at other
  cases form with
  | one | two | three | four => cases other <;> first | rfl | omega

/-- A character is read off its own bytes only. -/
theorem piece_eq_some {b : UInt8} (read : piece b r = (some c, t)) : b :: r = String.utf8EncodeChar c ++ t := by
  unfold piece at read
  split at read
  · next l lead =>
    rw [← UInt8.ofNat_toNat (x := b)] at lead
    obtain ⟨m, w, same, form, rfl⟩ := (lead?_announces b.toNat_lt lead).form read
    rw [UInt8.ofNat_toNat] at same
    rw [same, form.eq_encodeChar]
  · cases read

theorem eq_encode_of_pieces {s : Bytes} {cs : List Char} (read : (pieces s).mapM id = some cs) :
    s = cs.flatMap String.utf8EncodeChar := by
  match s with
  | [] =>
    rw [pieces_nil] at read
    cases read
    rfl
  | b :: r =>
    have shorter := piece_length_le b r
    simp only [pieces_cons, List.mapM_cons, id, Option.bind_eq_bind, Option.bind_eq_some_iff] at read
    obtain ⟨c, first, cs, rest, same⟩ := read
    cases same
    rw [List.flatMap_cons, ← eq_encode_of_pieces rest]
    exact piece_eq_some (Prod.ext first rfl)
termination_by s.length
decreasing_by exact Nat.lt_succ_of_le shorter

/-- A text is read from its bytes and from no others. -/
theorem decode?_eq_some {x : String} : decode? s = some x ↔ s = encode x := by
  constructor
  · intro read
    obtain ⟨cs, chars, rfl⟩ := Option.map_eq_some_iff.mp read
    rw [encode, String.toList_ofList]
    exact eq_encode_of_pieces chars
  · rintro rfl
    exact decode?_encode x

end TierTagger.Utf8
