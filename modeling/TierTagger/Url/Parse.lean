import TierTagger.Url.Basic

/-!
# Reading URLs

`Url.parse` reads a URL by itself. Spaces and controls around it and tabs and line ends in it are left
out. Behind a special scheme any number of slashes, or of backslashes, introduces the host. Dot segments
of the path are resolved, however they are spelled.
-/

namespace TierTagger.Url

/-- Whether a character is a tab or an end of line, which a URL ignores. -/
def isBreak (c : Char) : Bool := c = '\t' || c = '\n' || c = '\r'

/-- A text without what a URL ignores. -/
def clean (s : List Char) : List Char :=
  (((s.dropWhile (· ≤ ' ')).reverse.dropWhile (· ≤ ' ')).reverse).filter (!isBreak ·)

/-- The characters of a scheme after the first. -/
def isSchemeChar (c : Char) : Bool := c.isAlphanum || c = '+' || c = '-' || c = '.'

/-- The scheme in small letters and what follows its colon. -/
def scheme? : List Char → Option (String × List Char)
  | [] => none
  | c :: r =>
    if c.isAlpha then
      match r.dropWhile isSchemeChar with
      | ':' :: rest => some (String.ofList ((c :: r.takeWhile isSchemeChar).map Char.toLower), rest)
      | _ => none
    else none

/-! ## The path -/

/-- The slash, and for special schemes the backslash too. -/
def isSlash (special : Bool) (c : Char) : Bool := c = '/' || (special && c = '\\')

/-- The characters that end the path. -/
def isPathEnd (c : Char) : Bool := c = '?' || c = '#'

/-- The spellings of a point. -/
def points : List String := [".", "%2e", "%2E"]

/-- The segments that stand for the place itself. -/
def isSingleDot (s : String) : Bool := points.contains s

/-- The segments that stand for the place above. -/
def isDoubleDot (s : String) : Bool := (points.flatMap fun a => points.map (a ++ ·)).contains s

/-- Resolves dot segments; `done` holds the segments before them, the last one first. The place above
keeps the segments for which `keep` holds. -/
def resolve (keep : String → Bool) (done : List String) : List String → List String
  | [] => done.reverse
  | s :: rest =>
    let above := if (done.head?.map keep).getD false then done else done.tail
    match rest with
    | [] =>
      if isDoubleDot s then ("" :: above).reverse
      else if isSingleDot s then ("" :: done).reverse
      else (s :: done).reverse
    | _ =>
      if isDoubleDot s then resolve keep above rest
      else if isSingleDot s then resolve keep done rest
      else resolve keep (s :: done) rest

/-- The encoded segments of the text of a path, from behind its first slash. -/
def segmentsOf (special : Bool) (s : List Char) : List String :=
  (Text.fields (isSlash special) s).map (Percent.encode EncodeSet.path)

/-- The path behind an authority. -/
def pathAfterHost (special : Bool) (s : List Char) : Path :=
  match s.takeWhile (!isPathEnd ·) with
  | [] => .rooted (if special then [""] else [])
  | c :: r =>
    .rooted (resolve (fun _ => false) [] (segmentsOf special (if isSlash special c then r else c :: r)))

/-! ## Query and fragment -/

/-- A URL whose query and fragment are in what follows the path. -/
def withRest (scheme : String) (authority : Option Authority) (path : Path) (s : List Char) : Url :=
  let r := s.dropWhile (!isPathEnd ·)
  let (query, fragment) :=
    match r with
    | '?' :: q => (some (q.takeWhile (· ≠ '#')), q.dropWhile (· ≠ '#'))
    | _ => (none, r)
  { scheme, authority, path
    query := query.map (Percent.encode (EncodeSet.query (isSpecial scheme)))
    fragment :=
      match fragment with
      | '#' :: f => some (Percent.encode EncodeSet.fragment f)
      | _ => none }

/-! ## The authority -/

/-- The characters that end an authority. -/
def isAuthorityEnd (special : Bool) (c : Char) : Bool := isSlash special c || isPathEnd c

/-- What comes before the last at sign of the authority and what comes after it. -/
def cutUserinfo (special : Bool) (s : List Char) : Option (List Char × List Char) :=
  let region := s.takeWhile (!isAuthorityEnd special ·)
  if region.contains '@' then
    let after := (region.reverse.takeWhile (· ≠ '@')).length
    some (region.take (region.length - after - 1), s.drop (region.length - after))
  else none

/-- User name and password. -/
def userinfo (s : List Char) : String × String :=
  let name := s.takeWhile (· ≠ ':')
  (Percent.encode EncodeSet.userinfo name,
    Percent.encode EncodeSet.userinfo (s.drop (name.length + 1)))

/-- The text of a host and what follows it. A colon between brackets belongs to the host. -/
def hostText (special inside : Bool) : List Char → List Char × List Char
  | [] => ([], [])
  | c :: r =>
    if isAuthorityEnd special c || (c = ':' && !inside) then ([], c :: r)
    else
      let (h, rest) := hostText special (if c = '[' then true else if c = ']' then false else inside) r
      (c :: h, rest)

/-- The port behind a host, if it is given and not the one of the scheme, and what follows it. -/
def port (scheme : String) : List Char → Except Error (Option Nat × List Char)
  | ':' :: r =>
    let digits := r.takeWhile Char.isDigit
    let rest := r.dropWhile Char.isDigit
    let n := Text.Numeral.value 10 digits
    if 65535 < n ∨ (rest.head?.map (!isAuthorityEnd true ·)).getD false then .error .port
    else .ok (if digits = [] ∨ defaultPort? scheme = some n then none else some n, rest)
  | s => .ok (none, s)

/-- The host of a URL and what follows it. A special URL has to have one. -/
def host (scheme : String) (s : List Char) : Except Error (Host × List Char) :=
  let special := isSpecial scheme
  let (text, rest) := hostText special false s
  if text = [] then
    if special ∨ rest.head? = some ':' then .error .emptyHost else .ok (.domain "", rest)
  else do
    let h ← if special then Host.ofName text else Host.ofText text
    return (h, rest)

/-- Reads a URL from its authority on. -/
def afterSlashes (scheme : String) (s : List Char) : Except Error Url := do
  let special := isSpecial scheme
  let cut := cutUserinfo special s
  let (before, s) := cut.getD ([], s)
  if cut.isSome ∧ before = [] ∧ (s.head?.map (isAuthorityEnd special)).getD false then
    .error .emptyHost
  let (username, password) := userinfo before
  let (h, rest) ← host scheme s
  let (p, rest) ← port scheme rest
  if h = .domain "" ∧ ¬(username = "" ∧ password = "") then .error .emptyHost
  else return withRest scheme (some ⟨username, password, h, p⟩) (pathAfterHost special rest) rest

/-! ## Files -/

/-- Whether a text is a letter and a colon, or a bar for it. -/
def isDrive (s : List Char) : Bool :=
  match s with
  | [c, d] => c.isAlpha && (d = ':' || d = '|')
  | _ => false

/-- The segments of the path of a file: those of its start that are empty are left out, and a drive is
written with a colon. -/
def filePath (s : List Char) : List String :=
  let raw := (Text.fields (isSlash true) s).dropWhile (· = [])
  let raw := match raw with
    | first :: rest => (if isDrive first then first.take 1 ++ [':'] else first) :: rest
    | [] => []
  match (resolve (fun t => isDrive t.toList && t.toList.getLast? = some ':') []
      (raw.map (Percent.encode EncodeSet.path))).dropWhile (· = "") with
  | [] => [""]
  | segments => segments

/-- Reads the URL of a file. -/
def file (s : List Char) : Except Error Url := do
  let isEnd := isAuthorityEnd true
  let hostOf (r : List Char) : Except Error (Host × List Char) := do
    let text := r.takeWhile (!isEnd ·)
    if text = [] ∨ isDrive text then return (.domain "", r)
    else
      let h ← Host.ofName text
      return (if h = .domain "localhost" then .domain "" else h, r.dropWhile (!isEnd ·))
  let (h, r) ← match s with
    | a :: b :: r => if isSlash true a && isSlash true b then hostOf r else pure (.domain "", s)
    | _ => pure (.domain "", s)
  let segments := filePath (r.takeWhile (!isPathEnd ·))
  let drive := (segments.head?.map fun t => isDrive t.toList).getD false
  return withRest "file" (some ⟨"", "", if drive then .domain "" else h, none⟩) (.rooted segments) r

/-! ## The whole -/

/-- Reads a URL. -/
def parse (text : String) : Except Error Url :=
  match scheme? (clean text.toList) with
  | none => .error .relative
  | some (scheme, r) =>
    if scheme = "file" then file r
    else if isSpecial scheme then afterSlashes scheme (r.dropWhile (isSlash true))
    else match r with
      | '/' :: '/' :: r => afterSlashes scheme r
      | '/' :: r =>
        .ok (withRest scheme none
          (.rooted (resolve (fun _ => false) [] (segmentsOf false (r.takeWhile (!isPathEnd ·))))) r)
      | _ =>
        .ok (withRest scheme none
          (.flat (Percent.encode EncodeSet.controls (r.takeWhile (!isPathEnd ·)))) r)

end TierTagger.Url
