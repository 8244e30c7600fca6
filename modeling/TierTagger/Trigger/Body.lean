import TierTagger.Trigger.Head

/-!
# Bodies of requests

What arrives of a body and whether it came to its end. A body of known length ends after so many bytes. A
body in chunks is a sequence of sizes in hexadecimal, each on a line of its own with the bytes behind it,
and ends with a chunk of size zero, headers that may be there, and an empty line.

* `Framing.read`: the bytes of a body in what arrives.
* `Framing.writeChunks`: a way to send a body; chunks may have any sizes.
* `Arrival.verdict`: whether a body is taken, given the most bytes that it may have.
-/

namespace TierTagger.Trigger

/-- What arrives of a body. -/
structure Arrival where
  /-- The pieces in which it arrives. -/
  frames : List Bytes
  /-- The body came to its proper end. -/
  complete : Bool
  deriving DecidableEq, Repr

/-- All bytes that arrive of a body. -/
def Arrival.bytes (a : Arrival) : Bytes := a.frames.flatten

namespace Framing

/-! ## Chunks -/

/-- The rest of a line of a chunk size, after its digits: blanks, and an extension behind a semicolon. -/
def afterSize : (extension : Bool) → Bytes → Option Bytes
  | _, [] => none
  | extension, b :: r =>
    if b = Ascii.return_ then
      match r with
      | Ascii.lineFeed :: rest => some rest
      | _ => none
    else if extension then if b = Ascii.lineFeed then none else afterSize true r
    else if Head.isBlank b then afterSize false r
    else if b = 0x3b then afterSize true r
    else none

/-- The value of hexadecimal digits, and the bytes after them. -/
def hexadecimal (n : Nat) : Bytes → Nat × Bytes
  | [] => (n, [])
  | b :: r =>
    match Ascii.hexValue? b with
    | some d => hexadecimal (n * 16 + d) r
    | none => (n, b :: r)

/-- The size of the next chunk, and the bytes after its line. -/
def size? (s : Bytes) : Option (Nat × Bytes) :=
  match s with
  | [] => none
  | b :: _ =>
    if (Ascii.hexValue? b).isNone then none
    else
      let (n, r) := hexadecimal 0 s
      if n < Nat.pow 2 64 then (afterSize false r).map (n, ·) else none

/-- Whether headers and an empty line come after the last chunk; `line` is the line so far. -/
def endsProperly (line : Bytes) : Bytes → Bool
  | [] => false
  | Ascii.return_ :: r =>
    match r with
    | Ascii.lineFeed :: rest =>
      if line = [] then true else (Head.header? line).isSome && endsProperly [] rest
    | _ => false
  | b :: r => endsProperly (line ++ [b]) r

theorem afterSize_length {extension : Bool} {s r : Bytes} (h : afterSize extension s = some r) :
    r.length < s.length := by
  induction s generalizing extension with
  | nil => simp [afterSize] at h
  | cons b t ih =>
    simp only [afterSize] at h
    split at h
    · split at h
      · obtain rfl := Option.some.inj h
        simp only [List.length_cons]
        omega
      · simp at h
    · split at h
      · split at h
        · simp at h
        · exact Nat.lt_succ_of_lt (ih h)
      · split at h
        · exact Nat.lt_succ_of_lt (ih h)
        · split at h
          · exact Nat.lt_succ_of_lt (ih h)
          · simp at h

theorem hexadecimal_length (n : Nat) (s : Bytes) : (hexadecimal n s).2.length ≤ s.length := by
  induction s generalizing n with
  | nil => simp [hexadecimal]
  | cons b r ih =>
    simp only [hexadecimal]
    split
    · exact Nat.le_succ_of_le (ih _)
    · simp

theorem size?_length {s r : Bytes} {n : Nat} (h : size? s = some (n, r)) : r.length < s.length := by
  unfold size? at h
  split at h
  · simp at h
  · split at h
    · simp at h
    · simp only at h
      split at h
      · obtain ⟨t, ht, e⟩ := Option.map_eq_some_iff.1 h
        obtain ⟨-, rfl⟩ := Prod.mk.inj e
        exact Nat.lt_of_lt_of_le (afterSize_length ht) (hexadecimal_length _ _)
      · simp at h

/-- What arrives of a body in chunks, each of them in one piece. -/
def readChunks (s : Bytes) : Arrival :=
  match _h : size? s with
  | none => ⟨[], false⟩
  | some (0, r) => ⟨[], endsProperly [] r⟩
  | some (n + 1, r) =>
    let data := r.take (n + 1)
    match _hr : r.drop (n + 1) with
    | Ascii.return_ :: Ascii.lineFeed :: rest =>
      let later := readChunks rest
      ⟨data :: later.frames, later.complete⟩
    | _ => ⟨[data], false⟩
termination_by s.length
decreasing_by
  have hs := size?_length _h
  have hd := congrArg List.length _hr
  simp only [List.length_drop, List.length_cons] at hd
  omega

/-- What arrives of a body. -/
def read : Framing → Bytes → Arrival
  | length n, s => ⟨[s.take n], n ≤ s.length⟩
  | chunked, s => readChunks s

/-! ## Sending -/

/-- A chunk with its size. -/
def writeChunk (data : Bytes) : Bytes :=
  (Nat.toDigits 16 data.length).map Ascii.ofChar ++ [Ascii.return_, Ascii.lineFeed] ++ data ++
    [Ascii.return_, Ascii.lineFeed]

/-- A body in chunks: none of them is empty. -/
def writeChunks (chunks : List Bytes) : Bytes := chunks.flatMap writeChunk ++ writeChunk []

end Framing

/-! ## The limit -/

/-- Whether the body of a request is taken. -/
inductive Verdict where
  | taken (body : Bytes)
  /-- More bytes arrive than a body may have. -/
  | tooLarge (limit : Nat)
  /-- The body breaks off. -/
  | brokenOff
  deriving DecidableEq, Repr

/-- Takes the pieces of a body one after the other; `room` is how many bytes there may still be, and
`taken` are those before. -/
def collect (limit : Nat) (complete : Bool) : (room : Nat) → (taken : Bytes) → List Bytes → Verdict
  | _, taken, [] => if complete then .taken taken else .brokenOff
  | room, taken, frame :: rest =>
    if room < frame.length then .tooLarge limit
    else collect limit complete (room - frame.length) (taken ++ frame) rest

/-- The verdict on what arrives of a body. -/
def Arrival.verdict (limit : Nat) (a : Arrival) : Verdict := collect limit a.complete limit [] a.frames

end TierTagger.Trigger
