/-!
# Readers

A reader takes a value from the start of a text and leaves the rest, or fails. `p <|> q` tries `q` on the
whole text where `p` fails; `many p` reads as often as `p` succeeds and takes something away.
-/

namespace TierTagger.Toml

/-- A reader of values. -/
abbrev Reader := StateT (List Char) Option

namespace Reader

variable {α β : Type}

/-- A character of a class. -/
def satisfy (p : Char → Bool) : Reader Char
  | [] => none
  | c :: r => if p c then some (c, r) else none

/-- One character. -/
def char (c : Char) : Reader Char := satisfy (· = c)

/-- The characters of a word. -/
def word : List Char → Reader Unit
  | [] => pure ()
  | c :: w => do let _ ← char c; word w

/-- The longest run of characters of a class. -/
def run (p : Char → Bool) : Reader (List Char) := fun s => some (s.takeWhile p, s.dropWhile p)

/-- The longest run of at least one character of a class. -/
def run1 (p : Char → Bool) : Reader (List Char) := do return (← satisfy p) :: (← run p)

/-- The end of the text. -/
def ending : Reader Unit
  | [] => some ((), [])
  | _ => none

/-- What a reader would read, without taking it away. -/
def ahead (p : Reader α) : Reader α := fun s => (p s).map fun (a, _) => (a, s)

/-- All values that a reader reads one after the other, and what is left. -/
def repeated (p : Reader α) (s : List Char) : List α × List Char :=
  match p s with
  | none => ([], s)
  | some (a, r) =>
    if _h : r.length < s.length then
      let (as, t) := repeated p r
      (a :: as, t)
    else ([], s)
termination_by s.length

/-- All values that a reader reads one after the other. -/
def many (p : Reader α) : Reader (List α) := fun s => some (repeated p s)

/-- Values with a separator between them, at least one. -/
def separated (p : Reader α) (sep : Reader β) : Reader (List α) := do
  return (← p) :: (← many (do let _ ← sep; p))

/-- A value that fulfils a condition. -/
def guarded (p : Reader α) (ok : α → Bool) : Reader α := do
  let a ← p
  if ok a then return a else failure

/-- A value of which a function makes another. -/
def filterMap (p : Reader α) (f : α → Option β) : Reader β := do
  match f (← p) with
  | some b => return b
  | none => failure

/-- Exactly so many characters of a class. -/
def exactly (p : Char → Bool) : Nat → Reader (List Char)
  | 0 => pure []
  | n + 1 => do return (← satisfy p) :: (← exactly p n)

end Reader
end TierTagger.Toml
