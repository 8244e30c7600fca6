import TierTagger.Address

/-!
# Socket addresses

An internet address with a port. An IPv6 address is in brackets, and a zone may follow it behind a percent
sign. `parse?` takes leading zeros in ports and zones, `render` writes none.
-/

namespace TierTagger

/-- Where a server listens. -/
inductive SocketAddress where
  | v4 (address : Ipv4) (port : Nat)
  | v6 (address : Ipv6) (zone port : Nat)
  deriving DecidableEq, Repr

namespace SocketAddress

/-- A decimal number below a limit. -/
def number? (limit : Nat) (s : List Char) : Option Nat :=
  if s ≠ [] ∧ s.all Char.isDigit then
    let n := Text.Numeral.value 10 s
    if n < limit then some n else none
  else none

/-- A port. -/
def port? (s : List Char) : Option Nat := number? 65536 s

/-- Reads an address. -/
def parse? (s : List Char) : Option SocketAddress :=
  match s with
  | '[' :: r =>
    let inside := r.takeWhile (· ≠ ']')
    match r.dropWhile (· ≠ ']') with
    | ']' :: ':' :: p => do
      let a ← Ipv6.parse? (inside.takeWhile (· ≠ '%'))
      let zone ← match inside.dropWhile (· ≠ '%') with
        | [] => some 0
        | _ :: z => number? (Nat.pow 2 32) z
      return .v6 a zone (← port? p)
    | _ => none
  | _ =>
    match s.dropWhile (· ≠ ':') with
    | _ :: p => do return .v4 (← Ipv4.parse? (s.takeWhile (· ≠ ':'))) (← port? p)
    | [] => none

/-- The IPv4 address that an IPv6 address stands for. -/
def mapped? (a : Ipv6) : Option Ipv4 :=
  match a.groups with
  | [0, 0, 0, 0, 0, 0xffff, x, y] => some ⟨.ofNat (x.toNat * 65536 + y.toNat)⟩
  | _ => none

/-- An IPv6 address; one that stands for an IPv4 address shows it. -/
def renderV6 (a : Ipv6) : String :=
  match mapped? a with
  | some b => "::ffff:" ++ b.render
  | none => a.render

/-- The address without the port. -/
def renderHost : SocketAddress → String
  | v4 a _ => a.render
  | v6 a zone _ => "[" ++ renderV6 a ++ (if zone = 0 then "" else "%" ++ toString zone) ++ "]"

/-- The port. -/
def port : SocketAddress → Nat
  | v4 _ p | v6 _ _ p => p

/-- The text of an address. -/
def render (a : SocketAddress) : String := a.renderHost ++ ":" ++ toString a.port

end SocketAddress
end TierTagger
