import TierTagger.Address
import TierTagger.Url.Domain
import TierTagger.Url.Percent

/-!
# Hosts

The host of a URL: a domain name or an internet address. Where the scheme is a special one, a name
whose last label is a number is an IPv4 address, of one to four numbers in base 8, 10 or 16; elsewhere a
host is any text without the characters that delimit it.
-/

namespace TierTagger.Url

/-- Why a text is no URL. -/
inductive Error where
  | relative
  | emptyHost
  | international
  | port
  | ipv4
  | ipv6
  | domainCharacter
  deriving DecidableEq, Repr

/-- The wording of an error. -/
def Error.message : Error → String
  | relative => "relative URL without a base"
  | emptyHost => "empty host"
  | international => "invalid international domain name"
  | port => "invalid port number"
  | ipv4 => "invalid IPv4 address"
  | ipv6 => "invalid IPv6 address"
  | domainCharacter => "invalid domain character"

/-- The host of a URL. -/
inductive Host where
  | domain (name : String)
  | ipv4 (address : Ipv4)
  | ipv6 (address : Ipv6)
  deriving DecidableEq, Repr

namespace Host

/-- The text of a host. -/
def render : Host → String
  | domain name => name
  | ipv4 a => a.render
  | ipv6 a => "[" ++ a.render ++ "]"

/-- A number of an IPv4 address: hexadecimal after `0x`, octal after `0`, else decimal. -/
def number? : List Char → Option Nat
  | [] => none
  | '0' :: 'x' :: r | '0' :: 'X' :: r =>
    if r.all (Text.Numeral.isDigit 16) then some (Text.Numeral.value 16 r) else none
  | '0' :: d :: r =>
    if (d :: r).all (Text.Numeral.isDigit 8) then some (Text.Numeral.value 8 (d :: r)) else none
  | s => if s.all (Text.Numeral.isDigit 10) then some (Text.Numeral.value 10 s) else none

/-- The labels of a name, without the empty one after a point at its end. -/
def labels (name : List Char) : List (List Char) :=
  let parts := Text.fields (· == '.') name
  if 1 < parts.length ∧ parts.getLast? = some [] then parts.dropLast else parts

/-- Whether the last label of a name is a number, so that the name is an IPv4 address. -/
def endsInNumber (name : List Char) : Bool :=
  match (labels name).getLast? with
  | some last => (last ≠ [] && last.all Char.isDigit) || (number? last).isSome
  | none => false

/-- The address of at most four numbers: the last one fills the bytes that the others leave. -/
def ofNumbers? (ns : List Nat) : Option Ipv4 :=
  match ns.getLast? with
  | none => none
  | some last =>
    let firsts := ns.dropLast
    if ns.length ≤ 4 ∧ firsts.all (· < 256) ∧ last < Nat.pow 256 (5 - ns.length) then
      some ⟨.ofNat (firsts.zipIdx.foldl (fun a (n, i) => a + n * Nat.pow 256 (3 - i)) last)⟩
    else none

/-- The IPv6 address between brackets. -/
def bracketed (r : List Char) : Except Error Host :=
  if r.getLast? = some ']' then
    match Ipv6.parse? r.dropLast with
    | some a => .ok (.ipv6 a)
    | none => .error .ipv6
  else .error .ipv6

/-- The host of a special URL. -/
def ofName (s : List Char) : Except Error Host :=
  match s with
  | '[' :: r => bracketed r
  | _ =>
    match Domain.toAscii? (Percent.decode (Utf8.encode (.ofList s))) with
    | none => .error .international
    | some name =>
      if name = "" then .error .emptyHost
      else if endsInNumber name.toList then
        match ((labels name.toList).mapM number?).bind ofNumbers? with
        | some a => .ok (.ipv4 a)
        | none => .error .ipv4
      else .ok (.domain name)

/-- The characters that delimit a host. -/
def isDelimiter (c : Char) : Bool :=
  ['\x00', '\t', '\n', '\r', ' ', '#', '/', ':', '<', '>', '?', '@', '[', '\\', ']', '^', '|'].contains c

/-- The host of a URL that is not special. -/
def ofText (s : List Char) : Except Error Host :=
  match s with
  | '[' :: r => bracketed r
  | _ =>
    if s.any isDelimiter then .error .domainCharacter
    else .ok (.domain (Percent.encode EncodeSet.controls s))

end Host
end TierTagger.Url
