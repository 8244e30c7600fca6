import TierTagger.CommandLine.Flag
import TierTagger.Configuration
import TierTagger.Trigger.Serve

/-!
# The command line

The daemon has four options, each of them with a value. An option that is not given takes the value of
its variable in the environment, and else its default.

Arguments are read from left to right, and the first that is wrong is reported. The value of an option in
an argument of its own is only looked at when the next option begins or the arguments end; an argument
that begins with a hyphen is never a value.
-/

namespace TierTagger.CommandLine

/-! ## Arguments -/

/-- An option whose value is not looked at yet. -/
abbrev Pending := Option (Flag × Option String)

/-- Looks at the value of an option that is pending. -/
def settle (g : Given) : Pending → Except Problem Given
  | none => .ok g
  | some (f, value) => g.take f value

/-- The name and the value of a long option, from behind its hyphens. -/
def cut (s : List Char) : String × Option String :=
  (String.ofList (s.takeWhile (· ≠ '=')),
    match s.dropWhile (· ≠ '=') with
    | [] => none
    | _ :: value => some (String.ofList value))

/-- Reads the arguments. -/
def scan (g : Given) (pending : Pending) : List String → Except Problem Given
  | [] => settle g pending
  | argument :: rest =>
    match argument.toList with
    | ['-', '-'] =>
      match rest with
      | [] => settle g pending
      | x :: _ => .error (.unknown x)
    | '-' :: '-' :: long =>
      let (name, value) := cut long
      if name = "help" then
        match value with
        | some v => .error (.helpValue v)
        | none => (settle g pending).bind fun _ => .error .help
      else
        match Flag.ofName? name, value with
        | none, _ => .error (.unknown ("--" ++ name))
        | some f, some v =>
          (settle g pending).bind fun g => (g.take f (some v)).bind fun g => scan g none rest
        | some f, none => (settle g pending).bind fun g => scan g (some (f, none)) rest
    | '-' :: 'h' :: _ => (settle g pending).bind fun _ => .error .help
    | '-' :: c :: _ => .error (.unknown (String.ofList ['-', c]))
    | _ =>
      match pending with
      | some (f, none) => scan g (some (f, some argument)) rest
      | _ => .error (.unknown argument)

/-- Looks at the variables of the options that are not given. -/
def fromEnvironment (environment : String → Option String) (g : Given) : Except Problem Given :=
  Flag.all.foldlM (fun g f =>
    if g.has f then .ok g
    else match environment f.variableName with
      | some v => g.set f v
      | none => .ok g) g

/-- What the daemon is told. -/
structure Options where
  listen : SocketAddress
  config : String
  /-- Seconds that a request to vCenter may take. -/
  timeout : Nat
  bodyLimit : Nat
  deriving DecidableEq, Repr

/-- Where the daemon listens by default: port 8080 of all addresses. -/
def defaultListen : SocketAddress := .v4 ⟨0⟩ 8080

/-- The seconds that a request may take by default. -/
def defaultTimeout : Nat := 30

/-- The values given, and defaults for the others. -/
def Given.options (g : Given) : Options where
  listen := g.listen.getD defaultListen
  config := g.config.getD Configuration.defaultPath
  timeout := g.timeout.getD defaultTimeout
  bodyLimit := g.bodyLimit.getD Trigger.defaultLimit

/-- Reads arguments and environment. -/
def parse (arguments : List String) (environment : String → Option String) : Except Problem Options :=
  ((scan .nothing none arguments).bind (fromEnvironment environment)).map Given.options

end TierTagger.CommandLine
