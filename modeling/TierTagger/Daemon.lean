import TierTagger.CommandLine
import TierTagger.Logging
import TierTagger.Tagging.Run
import TierTagger.VCenter.Client

/-!
# The daemon

The process that serves alarms until it is told to stop: it reads the command line, listens, answers each
request by tagging the machine, and at the end logs out.

* `bind`: listening at an address, which the host may refuse.
* `start`: the options of a process that listens, or how it ended before.
* `stop`: logging out when the process is told to stop.
* `answer`: the response to what arrives on one connection.
-/

namespace TierTagger.Daemon

/-- Why a process does not listen. -/
inductive StartError where
  | usage (problem : CommandLine.Problem)
  /-- The host does not let it listen at the address. -/
  | unbound (address : String)
  deriving DecidableEq, Repr

/-- How a process ended: its status and the first line it wrote about it. -/
structure Exit where
  code : Nat
  line : String
  deriving DecidableEq, Repr

/-- The wording of an address that cannot be listened at. -/
def unboundMessage (address : String) : String := "failed to bind HTTP trigger on " ++ address

/-- How a process ends that does not listen. -/
def StartError.exit : StartError → Exit
  | usage .help => ⟨0, ""⟩
  | usage problem => ⟨2, problem.message⟩
  | unbound address => ⟨1, "Error: " ++ unboundMessage address⟩

/-- Listens at an address. `free` tells whether the host lets it. -/
def bind (free : SocketAddress → Bool) (a : SocketAddress) : Except StartError SocketAddress :=
  if free a then .ok a else .error (.unbound a.render)

/-- The options of a process that listens. -/
def start (free : SocketAddress → Bool) (arguments : List String)
    (environment : String → Option String) : Except StartError CommandLine.Options := do
  let options ← (CommandLine.parse arguments environment).mapError .usage
  let _ ← bind free options.listen
  return options

/-- How a process ends that was told to stop. -/
def stopped : Exit := ⟨0, ""⟩

/-- Whether a process that listened has logged debug lines by its end. Requests do, and so does a stop
without a session; if there is a session there were requests. -/
def loggedDebug (toggle : Option String) : Bool := Logging.isVerbose toggle

/-- The line of a process that was told to stop and logged out, if there was a session. -/
def releasedMessage : String := "directory session released"

/-- Logs out at the end; the answer is the line about it. Of all that stop a process the first one has
it. -/
def stop {δ : Type} : Sessions.Job δ (Option String) := do
  if ← Sessions.shutdown then return some releasedMessage
  return none

/-- The response to what arrives on a connection. -/
def answer {δ : Type} (limit : Nat) (input : Bytes) : Sessions.Job δ (Option Trigger.Response) :=
  (Trigger.serve limit input).run Tagging.handle

end TierTagger.Daemon
