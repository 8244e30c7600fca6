import TierTagger.Proofs.Url.Address

/-!
# One more segment

What the segments behind a path come to, whatever they are.

- `parse_rooted`: the URLs of special schemes have a path of segments.
- `slash_notMem_segmentText`: no slash is left in an encoded segment.
- `appendSegment_kept`: a segment counts without its tabs and line ends. What is left of it is encoded,
  or is a dot segment, which acts on the path.
-/

namespace TierTagger.Url

/-! ## Paths of segments -/

section
variable {scheme text : String} {s : List Char} {u : Url}

theorem exists_segments (special : Bool) (s : List Char) : ∃ segments, pathAfterHost special s = .rooted segments := by
  unfold pathAfterHost
  split <;> exact ⟨_, rfl⟩

theorem afterSlashes_eq_ok (read : afterSlashes scheme s = .ok u) :
    ∃ a segments rest, u = withRest scheme (some a) (.rooted segments) rest := by
  unfold afterSlashes at read
  simp only [bind, Except.bind, pure, Except.pure] at read
  split at read
  · cases read
  split at read
  · cases read
  split at read
  · cases read
  next rest _ =>
  split at read
  · cases read
  · cases read
    obtain ⟨segments, path⟩ := exists_segments (isSpecial scheme) rest.2
    exact ⟨_, segments, rest.2, by rw [path]⟩

theorem file_eq_ok (read : file s = .ok u) :
    ∃ a segments rest, u = withRest "file" (some a) (.rooted segments) rest := by
  have last {x : Except Error (Host × List Char)} {f : Host × List Char → Url}
      (made : ∀ h, ∃ a segments rest, f h = withRest "file" (some a) (.rooted segments) rest)
      (read : (x >>= fun h => .ok (f h)) = .ok u) :
      ∃ a segments rest, u = withRest "file" (some a) (.rooted segments) rest := by
    cases x with
    | error e => cases read
    | ok h =>
      cases read
      exact made h
  unfold file at read
  extract_lets at read
  split at read
  · split at read
    · exact last (fun _ => ⟨_, _, _, rfl⟩) read
    · exact last (fun _ => ⟨_, _, _, rfl⟩) read
  · exact last (fun _ => ⟨_, _, _, rfl⟩) read

/-- A URL of a special scheme has a path of segments. -/
theorem parse_rooted (parsed : parse text = .ok u) (special : isSpecial u.scheme) :
    ∃ segments, u.path = .rooted segments := by
  unfold parse at parsed
  split at parsed
  · cases parsed
  next scheme r _ =>
  by_cases is_file : scheme = "file"
  · rw [if_pos is_file] at parsed
    obtain ⟨a, segments, rest, rfl⟩ := file_eq_ok parsed
    exact ⟨segments, rfl⟩
  rw [if_neg is_file] at parsed
  by_cases known : isSpecial scheme
  · rw [if_pos known] at parsed
    obtain ⟨a, segments, rest, rfl⟩ := afterSlashes_eq_ok parsed
    exact ⟨segments, rfl⟩
  rw [if_neg known] at parsed
  split at parsed
  · obtain ⟨a, segments, rest, rfl⟩ := afterSlashes_eq_ok parsed
    exact ⟨segments, rfl⟩
  · cases parsed
    exact ⟨_, rfl⟩
  · cases parsed
    exact absurd special known

end

theorem render_concat (segments : List String) (s : String) :
    (Path.rooted (segments ++ [s])).render = (Path.rooted segments).render ++ "/" ++ s := by
  simp [Path.render, String.join_append, String.append_assoc]

/-! ## Encoded segments -/

theorem slash_notMem_byte (b : UInt8) : '/' ∉ Percent.byte b := by
  have digit : ∀ n < 16, Percent.digit n ≠ '/' := by decide
  have small : b.toNat < 256 := b.toNat_lt
  simp only [Percent.byte, List.mem_cons, List.not_mem_nil, or_false, not_or]
  exact ⟨by decide, (digit _ (by omega)).symm, (digit _ (by omega)).symm⟩

/-- An encoded segment is one segment. -/
theorem slash_notMem_segmentText (s : String) : '/' ∉ (segmentText s).toList := by
  rw [segmentText, Percent.encode, String.toList_ofList, List.mem_flatMap]
  rintro ⟨c, -, mem⟩
  unfold Percent.char at mem
  split at mem
  · obtain ⟨b, -, mem⟩ := List.mem_flatMap.mp mem
    exact slash_notMem_byte b mem
  · next plain =>
    obtain rfl := List.mem_singleton.mp mem
    exact plain (by decide)

/-! ## Appending -/

/-- A text has no tab and no end of line. -/
def Unbroken (s : String) : Prop := ∀ c ∈ s.toList, ¬isBreak c

instance (s : String) : Decidable (Unbroken s) := List.decidableBAll _ s.toList

/-- A text without its tabs and line ends. -/
def withoutBreaks (s : String) : String := String.ofList (s.toList.filter (!isBreak ·))

theorem withoutBreaks_eq_self {s : String} : withoutBreaks s = s ↔ Unbroken s := by
  have same : withoutBreaks s = s ↔ s.toList.filter (!isBreak ·) = s.toList := by
    rw [← String.toList_inj, withoutBreaks, String.toList_ofList]
  rw [same, List.filter_eq_self]
  simp [Unbroken]

/-- What a segment does to a path that is more than a slash. -/
theorem appendSegment_kept {s : String} (not_dot : s ≠ ".") (not_dots : s ≠ "..") {before : List String}
    (more : before ≠ [""]) : appendSegment true before s =
      if withoutBreaks s = ".." then before.dropLast ++ [""]
      else if withoutBreaks s = "." then before ++ [""]
      else before ++ [segmentText (withoutBreaks s)] := by
  have is (t : String) : s.toList.filter (!isBreak ·) = t.toList ↔ withoutBreaks s = t := by
    rw [← String.toList_inj, withoutBreaks, String.toList_ofList]
  have kept : Percent.encode (EncodeSet.segment true) (s.toList.filter (!isBreak ·)) =
      segmentText (withoutBreaks s) := by
    rw [segmentText, withoutBreaks, String.toList_ofList]
  unfold appendSegment
  rw [if_neg (by simp [not_dot, not_dots]), if_neg more]
  simp only [is, kept]

end TierTagger.Url
