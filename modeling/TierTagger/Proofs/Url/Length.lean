import TierTagger.Proofs.Url.Address

/-!
# How long a URL is

A URL has at least as many bytes as a segment of it stands for characters.
-/

namespace TierTagger.Url

theorem length_le_size (s : String) : s.length ≤ s.utf8ByteSize := by
  have chars (l : List Char) : l.length ≤ (String.ofList l).utf8ByteSize := by
    induction l with
    | nil => exact Nat.zero_le _
    | cons c l ih =>
      have one : 0 < c.utf8Size := Char.utf8Size_pos c
      rw [String.ofList_cons, String.utf8ByteSize_append, String.utf8ByteSize_singleton, List.length_cons]
      omega
  have bound := chars s.toList
  rwa [String.ofList_toList] at bound

/-- No character of a segment is left out in its written form. -/
theorem length_le_segmentText (s : String) : s.length ≤ (segmentText s).length := by
  have pieces (l : List Char) : l.length ≤ (l.flatMap (Percent.char (EncodeSet.segment true))).length := by
    induction l with
    | nil => exact Nat.zero_le _
    | cons c l ih =>
      have written : 0 < (Percent.char (EncodeSet.segment true) c).length :=
        List.length_pos_iff.mpr (percentChar_ne_nil _ c)
      rw [List.flatMap_cons, List.length_append, List.length_cons]
      omega
  rw [segmentText, Percent.encode, String.length_ofList, ← String.length_toList]
  exact pieces s.toList

theorem size_le_join {ws : List String} {w : String} (mem : w ∈ ws) :
    w.utf8ByteSize ≤ (String.join ws).utf8ByteSize := by
  induction ws with
  | nil => cases mem
  | cons v ws ih =>
    rw [String.join_cons, String.utf8ByteSize_append]
    rcases List.mem_cons.mp mem with rfl | mem
    · omega
    · have := ih mem
      omega

/-- A URL is at least as long as each segment of its path. -/
theorem size_le_render {u : Url} {segments : List String} {s : String} (path : u.path = .rooted segments)
    (mem : s ∈ segments) : s.utf8ByteSize ≤ u.render.utf8ByteSize := by
  have joined := size_le_join (List.mem_map_of_mem (f := ("/" ++ ·)) mem)
  simp only [render, target, path, Path.render, String.utf8ByteSize_append] at joined ⊢
  omega

end TierTagger.Url
