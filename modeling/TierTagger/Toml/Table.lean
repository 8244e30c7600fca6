import TierTagger.Toml.Scalar

/-!
# Tables

A document is a tree of tables. A table remembers how it came about, since that decides what may still
be put into it.

* A dotted key may enter tables that no header or value defined. The table that its last key goes into
  has to be one made by dotted keys.
* A header may define a table that was only implied by headers below it, and no other.
* A header of an array of tables adds an element; the path of any later header leads to the last one.
* Nothing is put into an array or into a table that is a value.

Entries are in the order in which they were put in. A table that was implied moves to the end when a
header defines it.
-/

namespace TierTagger.Toml

/-- How a table came about. -/
inductive Origin where
  /-- It has a header. -/
  | header
  /-- It is in the path of a header. -/
  | implied
  /-- It is in the path of a dotted key. -/
  | dotted
  deriving DecidableEq, Repr

/-- A value in a document. -/
inductive Node where
  | scalar (v : Scalar)
  | array (items : List Node)
  /-- A table that is a value. -/
  | inline (entries : List (String × Node))
  | table (origin : Origin) (entries : List (String × Node))
  /-- An array of tables. -/
  | tables (elements : List (List (String × Node)))
  deriving Repr

/-- The entries of a table in their order. -/
abbrev Entries := List (String × Node)

/-- A key with its value. -/
structure Assignment where
  path : List String
  key : String
  value : Node

/-- Headers of tables and of elements of arrays. -/
inductive HeaderKind where
  | table
  | element
  deriving DecidableEq, Repr

/-- A header and the assignments below it. -/
structure Section where
  kind : HeaderKind
  path : List String
  key : String
  assignments : List Assignment

namespace Entries

/-- Puts a new entry at the end. -/
def put (key : String) (v : Node) (es : Entries) : Option Entries :=
  if (es.lookup key).isSome then none else some (es ++ [(key, v)])

/-- Changes the entry of a key in its place, or puts a new one at the end. -/
def alter (key : String) (f : Option Node → Option Node) : Entries → Option Entries
  | [] => (f none).map fun v => [(key, v)]
  | (k, v) :: es =>
    if k = key then (f (some v)).map fun w => (k, w) :: es
    else (alter key f es).map ((k, v) :: ·)

/-- The last of the elements changed. -/
def alterLast (f : Entries → Option Entries) : List Entries → Option (List Entries)
  | [] => none
  | [es] => (f es).map ([·])
  | es :: rest => (alterLast f rest).map (es :: ·)

/-- Puts a value where a dotted key says. -/
def assign (key : String) (v : Node) : (path : List String) → Entries → Option Entries
  | [], es => put key v es
  | k :: path, es =>
    alter k (fun
      | none => (assign key v path []).map (.table .dotted)
      | some (.table origin inner) =>
        if origin = .header ∨ (path = [] ∧ origin ≠ .dotted) then none
        else (assign key v path inner).map (.table origin)
      | some (.tables elements) =>
        if path = [] then none else (alterLast (assign key v path) elements).map .tables
      | some _ => none) es

/-- Puts the values of assignments in order. -/
def assignAll (as : List Assignment) (es : Entries) : Option Entries :=
  as.foldlM (fun es a => assign a.key a.value a.path es) es

/-- Changes the table at the end of the path of a header; tables on the way that are missing are
implied. -/
def within (f : Entries → Option Entries) : (path : List String) → Entries → Option Entries
  | [], es => f es
  | k :: path, es =>
    alter k (fun
      | none => (within f path []).map (.table .implied)
      | some (.table origin inner) => (within f path inner).map (.table origin)
      | some (.tables elements) => (alterLast (within f path) elements).map .tables
      | some _ => none) es

/-- Adds what stands below the header of a table. -/
def addTable (key : String) (as : List Assignment) (es : Entries) : Option Entries :=
  match es.lookup key with
  | none => (assignAll as []).bind fun new => put key (.table .header new) es
  | some (.table .implied inner) =>
    (assignAll as inner).map fun new => es.filter (·.1 ≠ key) ++ [(key, .table .header new)]
  | some _ => none

/-- Adds what stands below the header of an element. -/
def addElement (key : String) (as : List Assignment) (es : Entries) : Option Entries :=
  (assignAll as []).bind fun new =>
    alter key (fun
      | none => some (.tables [new])
      | some (.tables elements) => some (.tables (elements ++ [new]))
      | some _ => none) es

/-- Adds a section. -/
def addSection (es : Entries) (s : Section) : Option Entries :=
  match s.kind with
  | .table => within (addTable s.key s.assignments) s.path es
  | .element => within (addElement s.key s.assignments) s.path es

/-- The entries of a document: assignments before the first header, and sections. -/
def ofDocument (as : List Assignment) (sections : List Section) : Option Entries :=
  (assignAll as []).bind fun es => sections.foldlM addSection es

end Entries
end TierTagger.Toml
