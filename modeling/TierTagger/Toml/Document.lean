import TierTagger.Toml.Table

/-!
# Documents

`parse?` reads a whole text into its entries. A document is a sequence of lines, each blank, an
assignment or a header. Arrays may go over several lines and end with a comma; tables that are values
may not.
-/

namespace TierTagger.Toml

open Reader

/-! ## Values -/

/-- A table that is a value. -/
def inlineTable (value : Reader Node) : Reader Node := do
  let _ ← char '\x7b'
  let pair : Reader Assignment := do
    let (path, key) ← dottedKey
    let _ ← char '='
    blanks
    let v ← value
    blanks
    return ⟨path, key, v⟩
  let pairs ← optional (separated pair (char ','))
  blanks
  let _ ← char '\x7d'
  match Entries.assignAll (pairs.getD []) [] with
  | some es => return .inline es
  | none => failure

/-- An array. -/
def array (value : Reader Node) : Reader Node := do
  let _ ← char '['
  let items ← optional do
    let items ← separated (do gap; let v ← value; gap; return v) (char ',')
    let _ ← optional (char ',')
    return items
  gap
  let _ ← char ']'
  return .array (items.getD [])

/-- A value in which arrays and tables are nested at most so deep. -/
def value : (depth : Nat) → Reader Node
  | 0 => Node.scalar <$> scalar
  | depth + 1 => Node.scalar <$> scalar <|> array (value depth) <|> inlineTable (value depth)

/-! ## Lines -/

/-- A line of a document. -/
inductive Line where
  | blank
  | assignment (a : Assignment)
  | header (kind : HeaderKind) (path : List String) (key : String)

/-- An assignment and the end of its line. -/
def assignment : Reader Line := do
  let (path, key) ← dottedKey
  let _ ← char '='
  blanks
  let v ← value deepest
  lineEnd
  return .assignment ⟨path, key, v⟩

/-- A header and the end of its line. -/
def header : Reader Line := do
  let kind ← (do word ['[', '[']; return HeaderKind.element) <|> (do word ['[']; return .table)
  let (path, key) ← dottedKey
  word (match kind with
    | .element => [']', ']']
    | .table => [']'])
  lineEnd
  return .header kind path key

/-- A line; the last one need not be ended. -/
def line : Reader Line := do
  blanks
  header <|> assignment <|> (do lineEnd; return .blank)

/-- The assignments before the first header, and the sections. -/
def sections : List Line → List Assignment × List Section
  | [] => ([], [])
  | l :: rest =>
    let (as, ss) := sections rest
    match l with
    | .blank => (as, ss)
    | .assignment a => (a :: as, ss)
    | .header kind path key => ([], ⟨kind, path, key, as⟩ :: ss)

/-- Reads a document. A byte order mark in front is passed over. -/
def parse? (text : String) : Option Entries :=
  let s := match text.toList with
    | '\ufeff' :: r => r
    | s => s
  match many line s with
  | some (lines, []) =>
    let (as, ss) := sections lines
    Entries.ofDocument as ss
  | _ => none

end TierTagger.Toml
