import TierTagger.SocketAddress
import TierTagger.Text.Numeral

/-!
# Options of the command line

The options, what their values are, and what can be wrong with them.

* `Given.set`: gives an option the value in a text.
* `Given.take`: the same for an argument: the option must not be given yet.
-/

namespace TierTagger.CommandLine

/-- The options. -/
inductive Flag where
  | listen
  | config
  | timeout
  | bodyLimit
  deriving DecidableEq, Repr

namespace Flag

/-- The options in the order in which their variables are looked at. -/
def all : List Flag := [listen, config, timeout, bodyLimit]

/-- The name of an option. -/
def name : Flag → String
  | listen => "listen"
  | config => "config"
  | timeout => "vcenter-timeout"
  | bodyLimit => "body-limit"

/-- The variable for an option. -/
def variableName : Flag → String
  | listen => "VMTIER_LISTEN"
  | config => "VMTIER_CONFIG"
  | timeout => "VMTIER_VCENTER_TIMEOUT"
  | bodyLimit => "VMTIER_BODY_LIMIT"

/-- An option and its value in a diagnosis. -/
def title : Flag → String
  | listen => "--listen <LISTEN>"
  | config => "--config <CONFIG>"
  | timeout => "--vcenter-timeout <VCENTER_TIMEOUT>"
  | bodyLimit => "--body-limit <BODY_LIMIT>"

/-- The option with a name. -/
def ofName? (s : String) : Option Flag := all.find? (·.name = s)

end Flag

/-- Why a value is refused. -/
inductive ValueError where
  | address
  | noDigits
  | invalidDigit
  | tooLarge
  deriving DecidableEq, Repr

/-- The wording of an error. -/
def ValueError.message : ValueError → String
  | address => "invalid socket address syntax"
  | noDigits => "cannot parse integer from empty string"
  | invalidDigit => "invalid digit found in string"
  | tooLarge => "number too large to fit in target type"

/-- Why there are no options. -/
inductive Problem where
  /-- Help was asked for. -/
  | help
  | unknown (argument : String)
  | noValue (flag : Flag)
  | repeated (flag : Flag)
  | invalid (flag : Flag) (value : String) (reason : ValueError)
  /-- Help was asked for with a value. -/
  | helpValue (value : String)
  deriving DecidableEq, Repr

/-- The wording of a problem. -/
def Problem.message : Problem → String
  | help => ""
  | unknown argument => "error: unexpected argument '" ++ argument ++ "' found"
  | noValue f => "error: a value is required for '" ++ f.title ++ "' but none was supplied"
  | repeated f => "error: the argument '" ++ f.title ++ "' cannot be used multiple times"
  | invalid f value reason =>
    "error: invalid value '" ++ value ++ "' for '" ++ f.title ++ "': " ++ reason.message
  | helpValue value =>
    "error: unexpected value '" ++ value ++ "' for '--help' found; no more were expected"

/-! ## Values -/

/-- Reads digits of a number of 64 bits. The first character that is no digit or makes the number too
large is the error. -/
def digits (n : Nat) : List Char → Except ValueError Nat
  | [] => .ok n
  | c :: r =>
    if !c.isDigit then .error .invalidDigit
    else
      let m := n * 10 + (Text.Numeral.digit? c).getD 0
      if m < Nat.pow 2 64 then digits m r else .error .tooLarge

/-- A number of 64 bits; a plus sign may be in front. -/
def number (s : String) : Except ValueError Nat :=
  match s.toList with
  | [] => .error .noDigits
  | ['+'] => .error .invalidDigit
  | '+' :: r => digits 0 r
  | cs => digits 0 cs

/-- The values given so far. -/
structure Given where
  listen : Option SocketAddress
  config : Option String
  timeout : Option Nat
  bodyLimit : Option Nat
  deriving DecidableEq, Repr

namespace Given

/-- Nothing is given. -/
def nothing : Given := ⟨none, none, none, none⟩

/-- Whether an option is given. -/
def has (g : Given) : Flag → Bool
  | .listen => g.listen.isSome
  | .config => g.config.isSome
  | .timeout => g.timeout.isSome
  | .bodyLimit => g.bodyLimit.isSome

/-- Gives an option a value. -/
def set (g : Given) (f : Flag) (value : String) : Except Problem Given :=
  match f with
  | .listen =>
    match SocketAddress.parse? value.toList with
    | some a => .ok { g with listen := some a }
    | none => .error (.invalid f value .address)
  | .config => if value = "" then .error (.noValue f) else .ok { g with config := some value }
  | .timeout => ((number value).mapError (.invalid f value)).map fun n => { g with timeout := some n }
  | .bodyLimit =>
    ((number value).mapError (.invalid f value)).map fun n => { g with bodyLimit := some n }

/-- Takes an option from the arguments. It has to have a value and must not be given yet. -/
def take (g : Given) (f : Flag) (value : Option String) : Except Problem Given :=
  match value with
  | none => .error (.noValue f)
  | some v => if g.has f then .error (.repeated f) else g.set f v

end Given

end TierTagger.CommandLine
