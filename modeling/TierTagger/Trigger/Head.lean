import TierTagger.Bytes

/-!
# Heads of requests

The part of an HTTP/1 request before its body: a line with method, target and version, and lines with
headers, up to an empty line. A line ends with a line feed, with a carriage return before it or not.

* `Head.read`: the head at the start of what arrives, unless it is cut short or not well-formed.
* `Head.framing`: how the headers delimit the body.
-/

namespace TierTagger.Trigger

/-- Why no request is read. -/
inductive HeadError where
  /-- What arrives ends within the head. -/
  | cutShort
  /-- What arrives is no request. -/
  | malformed
  deriving DecidableEq, Repr

/-- Versions of the protocol. -/
inductive Version where
  | http10
  | http11
  deriving DecidableEq, Repr

/-- The head of a request. Header names are in lower case. -/
structure Head where
  method : Bytes
  target : Bytes
  version : Version
  headers : List (Bytes × Bytes)
  deriving DecidableEq, Repr

/-- How the end of a body is found. -/
inductive Framing where
  | length (n : Nat)
  | chunked
  deriving DecidableEq, Repr

namespace Head

/-- The bytes of an ASCII text. -/
def ascii (s : String) : Bytes := s.toList.map Ascii.ofChar

/-- The bytes of a method or a header name. -/
def isToken (b : UInt8) : Bool :=
  Ascii.isDigit b || (0x41 ≤ b && b ≤ 0x5a) || (0x61 ≤ b && b ≤ 0x7a) ||
    (ascii "!#$%&*+-.^_`|~" ++ [0x27]).contains b

/-- The bytes of a target. -/
def isTarget (b : UInt8) : Bool := 0x21 ≤ b && b ≠ 0x7f

/-- The bytes of a header value. -/
def isValue (b : UInt8) : Bool := b = Ascii.tab || (0x20 ≤ b && b ≠ 0x7f)

/-- The blanks around a header value. -/
def isBlank (b : UInt8) : Bool := b = Ascii.space || b = Ascii.tab

/-- A letter in lower case. -/
def lower (b : UInt8) : UInt8 := if 0x41 ≤ b ∧ b ≤ 0x5a then b + 0x20 else b

/-- The lines up to the first empty one, without their ends, and the bytes after it. Empty lines in front
are passed over. -/
def lines (started : Bool) (line : Bytes) : Bytes → Option (List Bytes × Bytes)
  | [] => none
  | Ascii.lineFeed :: r =>
    let line := if line.getLast? = some Ascii.return_ then line.dropLast else line
    if line = [] then if started then some ([], r) else lines false [] r
    else (lines true [] r).map fun (ls, rest) => (line :: ls, rest)
  | b :: r => lines started (line ++ [b]) r

/-- A version by its name. -/
def version? (s : Bytes) : Option Version :=
  if s = ascii "HTTP/1.1" then some .http11
  else if s = ascii "HTTP/1.0" then some .http10
  else none

/-- A header line. -/
def header? (line : Bytes) : Option (Bytes × Bytes) :=
  let name := line.takeWhile isToken
  match line.dropWhile isToken with
  | Ascii.colon :: r =>
    let value := ((r.dropWhile isBlank).reverse.dropWhile isBlank).reverse
    if name ≠ [] ∧ value.all isValue then some (name.map lower, value) else none
  | _ => none

/-- A head from its lines. -/
def ofLines? : List Bytes → Option Head
  | [] => none
  | first :: rest =>
    let method := first.takeWhile isToken
    match first.dropWhile isToken with
    | Ascii.space :: r =>
      let target := r.takeWhile isTarget
      match r.dropWhile isTarget with
      | Ascii.space :: v => do
        let version ← version? v
        let headers ← rest.mapM header?
        if method = [] ∨ target = [] then none else some ⟨method, target, version, headers⟩
      | _ => none
    | _ => none

/-- Whether a request can start like this. -/
def isPlausible (s : Bytes) : Bool :=
  let r := s.dropWhile fun b => b = Ascii.return_ || b = Ascii.lineFeed
  match r.dropWhile isToken with
  | [] => true
  | b :: _ => b = Ascii.space && (r.head?.map isToken).getD false

/-- Reads a head; what is left comes after it. -/
def read (s : Bytes) : Except HeadError (Head × Bytes) :=
  match lines false [] s with
  | none => .error (if isPlausible s then .cutShort else .malformed)
  | some (ls, rest) =>
    match ofLines? ls with
    | some h => .ok (h, rest)
    | none => .error .malformed

/-- A decimal number. -/
def number? (s : Bytes) : Option Nat :=
  if s ≠ [] ∧ s.all Ascii.isDigit then
    let n := s.foldl (fun n b => n * 10 + Ascii.digitValue b) 0
    if n < Nat.pow 2 64 then some n else none
  else none

/-- Whether the last coding of a body is in chunks. -/
def isChunked (value : Bytes) : Bool :=
  let last := (value.reverse.takeWhile (· ≠ Ascii.comma)).reverse
  ((last.dropWhile isBlank).map lower) = ascii "chunked"

/-- What the headers before a place say about the body. -/
structure Stated where
  /-- Whether the last coding is in chunks, if there is one. -/
  coding : Option Bool
  length : Option Nat

/-- Takes one more header into account. A coding in the old version, and lengths that differ, are
refused; behind a coding, lengths do not count. -/
def state (version : Version) (s : Stated) (header : Bytes × Bytes) : Option Stated :=
  if header.1 = ascii "transfer-encoding" then
    if version = .http11 then some { s with coding := some (isChunked header.2) } else none
  else if header.1 = ascii "content-length" ∧ s.coding = none then
    match number? header.2 with
    | some n => if s.length.all (· = n) then some { s with length := some n } else none
    | none => none
  else some s

/-- How the body is delimited. The last coding has to be in chunks. A body without length is empty. -/
def framing (h : Head) : Option Framing :=
  (h.headers.foldlM (state h.version) ⟨none, none⟩).bind fun s =>
    match s.coding with
    | some true => some .chunked
    | some false => none
    | none => some (.length (s.length.getD 0))

end Head
end TierTagger.Trigger
