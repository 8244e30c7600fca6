import TierTagger.Proofs.Text.Utf8

/-!
# Text among other bytes

A byte sequence falls into pieces in front of any byte that does not go on a character (`pieces_append`),
whatever was cut off there. So text is found again wherever it stands (`lossy_encode`): what comes before it
cannot take bytes of it, and what comes after it cannot add any.
-/

namespace TierTagger.Utf8

variable {b : UInt8} {r s : Bytes}

/-- The second byte of a character or one after it. -/
def Continues (b : UInt8) : Prop := 0x80 ≤ b ∧ b ≤ 0xbf

/-- The sequence does not start within a character. -/
def Leading (s : Bytes) : Prop := ∀ b ∈ s.head?, ¬Continues b

/-! ## Pieces -/

/-- No character takes a byte that does not go on one. -/
theorem follow_append (leading : Leading s) (bits more : Nat) {low high : UInt8} (least : 0x80 ≤ low)
    (most : high ≤ 0xbf) (r : Bytes) : follow bits more low high (r ++ s) =
      ((follow bits more low high r).1, (follow bits more low high r).2 ++ s) := by
  induction r generalizing bits more low high with
  | nil =>
    cases more with
    | zero => rfl
    | succ more =>
      cases s with
      | nil => rfl
      | cons b s =>
        have outside : ¬(low ≤ b ∧ b ≤ high) := fun within =>
          leading b rfl ⟨UInt8.le_trans least within.1, UInt8.le_trans within.2 most⟩
        simp only [List.nil_append, follow, if_neg outside]
  | cons b r ih =>
    cases more with
    | zero => rfl
    | succ more =>
      simp only [List.cons_append, follow]
      split
      · exact ih _ _ (UInt8.le_refl _) (UInt8.le_refl _)
      · rfl

/-- The second byte of a character continues it. -/
theorem lead?_bounds {l : Lead} (lead : lead? b = some l) : 0x80 ≤ l.low ∧ l.high ≤ 0xbf := by
  unfold lead? at lead
  repeat' split at lead
  all_goals simp only [Option.some.injEq, reduceCtorEq] at lead
  all_goals
    subst lead
    simp

theorem piece_append (leading : Leading s) (b : UInt8) (r : Bytes) :
    piece b (r ++ s) = ((piece b r).1, (piece b r).2 ++ s) := by
  unfold piece
  split
  · next l lead =>
    obtain ⟨least, most⟩ := lead?_bounds lead
    exact follow_append leading _ _ least most r
  · rfl

/-- The pieces in front of a byte that does not go on a character are found without it. -/
theorem pieces_append (leading : Leading s) (r : Bytes) : pieces (r ++ s) = pieces r ++ pieces s := by
  match r with
  | [] => simp
  | b :: r =>
    have shorter := piece_length_le b r
    rw [List.cons_append, pieces_cons, pieces_cons, piece_append leading, List.cons_append]
    congr 1
    exact pieces_append leading (piece b r).2
termination_by r.length
decreasing_by
  simp only [List.length_cons]
  omega

theorem lossy_append (leading : Leading s) (r : Bytes) : lossy (r ++ s) = lossy r ++ lossy s := by
  simp only [lossy, pieces_append leading, List.map_append, String.ofList_append]

/-! ## Text -/

theorem continues_ofNat {n : Nat} (small : n < 256) : Continues (.ofNat n) ↔ 0x80 ≤ n ∧ n ≤ 0xbf := by
  rw [Continues, UInt8.le_iff_toNat_le, UInt8.le_iff_toNat_le, UInt8.toNat_ofNat_of_lt' small]
  rfl

/-- No character starts with a byte that goes on one. -/
theorem leading_encodeChar (c : Char) (r : Bytes) : Leading (String.utf8EncodeChar c ++ r) := by
  have form := encodeChar_form c
  generalize String.utf8EncodeChar c = bytes at form
  intro b first
  cases form with
  | one | two | three | four =>
    cases first
    rw [continues_ofNat (by omega)]
    omega

/-- All bytes of a character but the first go on it. -/
theorem continues_tail {c : Char} (bytes : String.utf8EncodeChar c = b :: r) : ∀ d ∈ r, Continues d := by
  have form := encodeChar_form c
  rw [bytes] at form
  have continues (k : Nat) : Continues (.ofNat (k % 64 + 0x80)) := by
    rw [continues_ofNat (by omega)]
    omega
  cases form with
  | one | two | three | four => simp only [List.forall_mem_cons, continues, List.not_mem_nil, false_implies,
      implies_true, and_self]

theorem leading_encode {m : String} (nonempty : m ≠ "") (r : Bytes) : Leading (encode m ++ r) := by
  unfold encode
  cases chars : m.toList with
  | nil => exact absurd (String.toList_eq_nil_iff.mp chars) nonempty
  | cons c cs =>
    rw [List.flatMap_cons, List.append_assoc]
    exact leading_encodeChar c _

theorem pieces_encode_append (m : String) (r : Bytes) :
    pieces (encode m ++ r) = m.toList.map some ++ pieces r := by
  unfold encode
  induction m.toList with
  | nil => rfl
  | cons c cs ih =>
    rw [List.flatMap_cons, List.append_assoc, pieces_encodeChar, ih, List.map_cons, List.cons_append]

/-- A text is read as it is, whatever comes after it. -/
theorem lossy_encode_append (m : String) (r : Bytes) : lossy (encode m ++ r) = m ++ lossy r := by
  simp [lossy, pieces_encode_append, Function.comp_def, String.ofList_append]

@[simp] theorem lossy_nil : lossy [] = "" := by simp [lossy]

@[simp] theorem lossy_encode (m : String) : lossy (encode m) = m := by
  have alone := lossy_encode_append m []
  simpa using alone

/-- A text is read as it is, wherever it stands. -/
theorem lossy_around {m : String} (nonempty : m ≠ "") (a b : Bytes) :
    lossy (a ++ (encode m ++ b)) = lossy a ++ m ++ lossy b := by
  rw [lossy_append (leading_encode nonempty b), lossy_encode_append, String.append_assoc]

end TierTagger.Utf8
