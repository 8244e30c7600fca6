import TierTagger.Bytes

/-!
# UTF-8

A byte sequence is cut into *pieces*: well-formed characters, and maximal ill-formed subparts, i.e.
the longest starts of a character that cannot be continued, or one byte that starts none.

* `decode?` reads a sequence that has only characters.
* `lossy` reads every sequence, with U+FFFD for each ill-formed piece.
* `validPrefix` counts the bytes before the first ill-formed piece.
-/

namespace TierTagger.Utf8

/-- The bytes of a text. -/
def encode (s : String) : Bytes := s.toList.flatMap String.utf8EncodeChar

/-- What a first byte announces: the bits it holds, how many bytes follow, and the range that the
second byte must be in. The range excludes overlong forms, surrogates and values past U+10FFFF. -/
structure Lead where
  bits : Nat
  more : Nat
  low : UInt8
  high : UInt8

/-- The first bytes of the well-formed sequences. -/
def lead? (b : UInt8) : Option Lead :=
  if b < 0x80 then some ⟨b.toNat, 0, 0x80, 0xbf⟩
  else if b < 0xc2 then none
  else if b < 0xe0 then some ⟨b.toNat - 0xc0, 1, 0x80, 0xbf⟩
  else if b = 0xe0 then some ⟨0, 2, 0xa0, 0xbf⟩
  else if b = 0xed then some ⟨0xd, 2, 0x80, 0x9f⟩
  else if b < 0xf0 then some ⟨b.toNat - 0xe0, 2, 0x80, 0xbf⟩
  else if b = 0xf0 then some ⟨0, 3, 0x90, 0xbf⟩
  else if b < 0xf4 then some ⟨b.toNat - 0xf0, 3, 0x80, 0xbf⟩
  else if b = 0xf4 then some ⟨4, 3, 0x80, 0x8f⟩
  else none

/-- Reads `more` continuation bytes, the first of them within `low` and `high`, onto the bits read so
far. An unfit byte ends the piece and is left unread. -/
def follow (bits : Nat) : (more : Nat) → (low high : UInt8) → Bytes → Option Char × Bytes
  | 0, _, _, r => (some (Char.ofNat bits), r)
  | _ + 1, _, _, [] => (none, [])
  | more + 1, low, high, b :: r =>
    if low ≤ b ∧ b ≤ high then follow (bits * 64 + (b.toNat - 0x80)) more 0x80 0xbf r
    else (none, b :: r)

/-- The piece that starts with a given byte, and what is left after it. -/
def piece (b : UInt8) (r : Bytes) : Option Char × Bytes :=
  match lead? b with
  | some l => follow l.bits l.more l.low l.high r
  | none => (none, r)

theorem follow_length_le (bits more : Nat) (low high : UInt8) (r : Bytes) :
    (follow bits more low high r).2.length ≤ r.length := by
  induction r generalizing bits more low high with
  | nil => cases more <;> simp [follow]
  | cons b r ih =>
    cases more with
    | zero => simp [follow]
    | succ more =>
      simp only [follow]
      split
      · exact Nat.le_succ_of_le (ih ..)
      · simp

theorem piece_length_le (b : UInt8) (r : Bytes) : (piece b r).2.length ≤ r.length := by
  unfold piece
  split
  · exact follow_length_le ..
  · simp

/-- The pieces in front of those already read, the last one first. -/
def piecesOnto (read : List (Option Char)) : Bytes → List (Option Char)
  | [] => read
  | b :: r => piecesOnto ((piece b r).1 :: read) (piece b r).2
termination_by s => s.length
decreasing_by exact Nat.lt_succ_of_le (piece_length_le b r)

/-- The pieces of a byte sequence in order; `none` stands for an ill-formed one. -/
def pieces (s : Bytes) : List (Option Char) := (piecesOnto [] s).reverse

theorem piecesOnto_append (read before : List (Option Char)) (s : Bytes) :
    piecesOnto (read ++ before) s = piecesOnto read s ++ before := by
  fun_induction piecesOnto read s with
  | case1 read => simp [piecesOnto]
  | case2 read b r ih => rw [piecesOnto, ← ih, List.cons_append]

@[simp] theorem pieces_nil : pieces [] = [] := by simp [pieces, piecesOnto]

/-- The pieces are the first piece and the pieces of the rest. -/
theorem pieces_cons (b : UInt8) (r : Bytes) :
    pieces (b :: r) = (piece b r).1 :: pieces (piece b r).2 := by
  have h := piecesOnto_append [] [(piece b r).1] (piece b r).2
  simp only [List.nil_append] at h
  simp [pieces, piecesOnto, h]

/-- The text of a well-formed sequence. -/
def decode? (s : Bytes) : Option String := ((pieces s).mapM id).map String.ofList

/-- The text of any sequence, each ill-formed piece read as U+FFFD. -/
def lossy (s : Bytes) : String := String.ofList ((pieces s).map (·.getD '\ufffd'))

/-- How many bytes come before the first ill-formed piece. -/
def validPrefix (s : Bytes) : Nat :=
  ((pieces s).takeWhile Option.isSome).foldl (fun n p => n + (p.map Char.utf8Size).getD 0) 0

end TierTagger.Utf8
