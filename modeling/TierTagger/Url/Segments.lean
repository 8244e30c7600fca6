import TierTagger.Url.Parse

/-!
# Appending to a path

`Url.extend` puts segments behind the path of a URL and replaces its query. Each segment is encoded, so
that it stays one segment, except that a dot segment is resolved: `.` and `..` themselves are passed over,
but a text that turns into one of them when its tabs and line ends are left out acts as one.
-/

namespace TierTagger.Url

/-- A path without the empty segment at its end, unless that is all there is. -/
def dropEmptyEnd (segments : List String) : List String :=
  if 1 < segments.length ∧ segments.getLast? = some "" then segments.dropLast else segments

/-- Puts a segment behind others. A path that is only a slash is replaced. -/
def appendSegment (special : Bool) (segments : List String) (segment : String) : List String :=
  if segment = "." ∨ segment = ".." then segments
  else
    let before := if segments = [""] then [] else segments
    let text := segment.toList.filter (!isBreak ·)
    if text = "..".toList then before.dropLast ++ [""]
    else if text = ".".toList then before ++ [""]
    else before ++ [Percent.encode (EncodeSet.segment special) text]

/-- A URL with segments behind its path and another query; `none` if its path has no segments. -/
def extend (u : Url) (segments : List String) (query : Option String) : Option Url :=
  match u.path with
  | .flat _ => none
  | .rooted path =>
    some { u with
      path := .rooted (segments.foldl (appendSegment (isSpecial u.scheme)) (dropEmptyEnd path))
      query }

end TierTagger.Url
